import StyledMarkup.DecodeFault
import StyledMarkup.Document
import StyledMarkup.MarkupToken

/-!
# Documents and tokens as JSON values

A style, a run and a document are objects whose members stand in a fixed order; a
token is an object whose only member says which kind of token it is. Reading
accepts more than writing produces: members in any order with unknown ones among
them, and a list of the members' values in place of the object.

When a value has several faults, the one reported is the first in the order of
the keys, and a missing member is reported only if nothing else is wrong.
-/
namespace StyledMarkup

namespace JsonDecoding

/-- A decoder of values of one kind. -/
abbrev Decoder (α : Type) := JsonValue → Except DecodeFault α

def bool : Decoder Bool
  | .bool value => .ok value
  | value => .error (.invalidType (.ofValue value) "a boolean")

def string : Decoder String
  | .string value => .ok value
  | value => .error (.invalidType (.ofValue value) "a string")

def byte : Decoder UInt8
  | .integer value =>
      if 0 ≤ value ∧ value < 256 then .ok (UInt8.ofNat value.toNat)
      else .error (.invalidValue (.integer value) "u8")
  | value => .error (.invalidType (.ofValue value) "u8")

def all {α : Type} (decode : Decoder α) : List JsonValue → Except DecodeFault (List α)
  | [] => .ok []
  | value :: rest =>
      match decode value with
      | .error fault => .error fault
      | .ok item => (all decode rest).map (item :: ·)

def list {α : Type} (decode : Decoder α) : Decoder (List α)
  | .array items => all decode items
  | value => .error (.invalidType (.ofValue value) "a sequence")

/-- The name of a field, and the fault of a value that cannot be its value. -/
structure Field where
  name : String
  fault? : JsonValue → Option DecodeFault

def Field.ofDecoder {α : Type} (name : String) (decode : Decoder α) : Field :=
  ⟨name, fun value =>
    match decode value with
    | .error fault => some fault
    | .ok _ => none⟩

/-- The first fault among the members, in the order of their keys. -/
def memberFault? (fields : List Field) (members : List (String × JsonValue)) :
    Option DecodeFault :=
  (members.mergeSort fun a b => !(b.1 < a.1)).findSome? fun (key, value) =>
    (fields.find? fun field => field.name == key).bind fun field => field.fault? value

/-- The fields by name, once all are known to be there and to have good values. -/
def ofMembers (fields : List Field) (members : List (String × JsonValue)) :
    Except DecodeFault (List (String × JsonValue)) :=
  match memberFault? fields members with
  | some fault => .error fault
  | none =>
      fields.mapM fun field =>
        match members.find? fun entry => entry.1 == field.name with
        | some entry => .ok entry
        | none => .error (.missingField field.name)

/-- The fields of a record given as a list, `index` of them being read already. -/
def ofItems (kind : String) (size : Nat) (index : Nat) :
    List Field → List JsonValue → Except DecodeFault (List (String × JsonValue))
  | [], [] => .ok []
  | [], rest => .error (.invalidLength (index + rest.length) "fewer elements in array")
  | _ :: _, [] => .error (.invalidLength index (DecodeFault.recordOf kind size))
  | field :: fields, value :: rest =>
      match field.fault? value with
      | some fault => .error fault
      | none => (ofItems kind size (index + 1) fields rest).map ((field.name, value) :: ·)

/-- The values of a record's fields, every one of which has been checked. -/
def record (kind : String) (fields : List Field) :
    JsonValue → Except DecodeFault (List (String × JsonValue))
  | .object members => ofMembers fields members
  | .array items => ofItems kind fields.length 0 fields items
  | value => .error (.invalidType (.ofValue value) kind)

/-- One field of a record. -/
def field {α : Type} (decode : Decoder α) (name : String)
    (values : List (String × JsonValue)) : Except DecodeFault α :=
  match values.find? fun entry => entry.1 == name with
  | some (_, value) => decode value
  | none => .error (.missingField name)

/-- The name of a variant and, if there is one, the value that belongs to it. -/
def variant : Decoder (String × Option JsonValue)
  | .string name => .ok (name, none)
  | .object [(name, value)] => .ok (name, some value)
  | .object _ => .error (.invalidValue .map "map with a single key")
  | value => .error (.invalidType (.ofValue value) "string or map")

/-- One of several names, as a string or as the only key of an object. -/
def named {α : Type} (known : List String) (ofName? : String → Option α) : Decoder α :=
  fun value =>
    match variant value with
    | .error fault => .error fault
    | .ok (name, payload) =>
        match ofName? name with
        | none => .error (.unknownVariant name known)
        | some item =>
            match payload with
            | none => .ok item
            | some .null => .ok item
            | some other => .error (.invalidType (.ofValue other) "unit")

end JsonDecoding

open JsonDecoding

def Color.toJson (color : Color) : JsonValue := .string color.name

def Color.ofJson : Decoder Color := named (Color.all.map Color.name) Color.ofName?

namespace Style

def toJson (style : Style) : JsonValue :=
  .object [
    ("bold", .bool style.bold),
    ("emphasis", .bool style.emphasis),
    ("italic", .bool style.italic),
    ("strike", .bool style.strike),
    ("literal", .bool style.literal),
    ("underline", .integer style.underline.toNat),
    ("size", .integer style.size.toNat),
    ("color", style.color.toJson)]

def fields : List Field :=
  [.ofDecoder "bold" bool, .ofDecoder "emphasis" bool, .ofDecoder "italic" bool,
    .ofDecoder "strike" bool, .ofDecoder "literal" bool, .ofDecoder "underline" byte,
    .ofDecoder "size" byte, .ofDecoder "color" Color.ofJson]

def ofJson : Decoder Style := fun value => do
  let values ← record "struct StyleState" fields value
  return {
    bold := ← field bool "bold" values
    emphasis := ← field bool "emphasis" values
    italic := ← field bool "italic" values
    strike := ← field bool "strike" values
    literal := ← field bool "literal" values
    underline := ← field byte "underline" values
    size := ← field byte "size" values
    color := ← field Color.ofJson "color" values }

end Style

namespace Run

def toJson (run : Run) : JsonValue :=
  .object [("state", run.style.toJson), ("tokens", .array (run.words.map .string))]

def ofJson : Decoder Run := fun value => do
  let values ← record "struct Run"
    [.ofDecoder "state" Style.ofJson, .ofDecoder "tokens" (list string)] value
  return ⟨← field Style.ofJson "state" values, ← field (list string) "tokens" values⟩

end Run

namespace Document

def toJson (document : Document) : JsonValue :=
  .object [("runs", .array (document.map Run.toJson))]

def ofJson : Decoder Document := fun value => do
  let values ← record "struct Document" [.ofDecoder "runs" (list Run.ofJson)] value
  field (list Run.ofJson) "runs" values

end Document

namespace Token

private def tagJson (name : String) (closing : Bool) : JsonValue :=
  .object [("Tag", .object [("name", .string name), ("closing", .bool closing)])]

def toJson : Token → JsonValue
  | .text written => .object [("Text", .string written)]
  | .opening name => tagJson name false
  | .closing name => tagJson name true

private def tagOfJson : Decoder Token
  | .object members => do
      let values ← ofMembers
        [.ofDecoder "name" string, .ofDecoder "closing" JsonDecoding.bool] members
      let name ← field string "name" values
      let isClosing ← field JsonDecoding.bool "closing" values
      return if isClosing then .closing name else .opening name
  | value => .error (.invalidType (.ofValue value) "struct variant")

def ofJson : Decoder Token := fun value => do
  let (kind, payload) ← variant value
  match kind, payload with
  | "Text", some payload => (string payload).map .text
  | "Text", none => .error (.invalidType .unitVariant "newtype variant")
  | "Tag", some payload => tagOfJson payload
  | "Tag", none => .error (.invalidType .unitVariant "struct variant")
  | name, _ => .error (.unknownVariant name ["Text", "Tag"])

end Token

end StyledMarkup
