import StyledMarkup.DocumentJson
import StyledMarkup.QuotedText
import StyledMarkup.YamlBlock

/-!
# Documents and tokens in the output formats

The simple format is for reading: a line for each run or token. A line for a text
token quotes the text, a line for a tag gives its name as it stands. The other two
formats hold the same values, with the same member names in the same order.
-/
namespace StyledMarkup

inductive OutputFormat where
  | simple | json | yaml
  deriving DecidableEq, Repr, Inhabited

namespace OutputFormat

def all : List OutputFormat := [simple, json, yaml]

/-- The name by which the format is asked for. -/
def name : OutputFormat → String
  | simple => "simple"
  | json => "json"
  | yaml => "yaml"

def ofName? (name : String) : Option OutputFormat :=
  all.find? fun format => format.name == name

theorem ofName?_name (format : OutputFormat) : ofName? format.name = some format := by
  cases format <;> decide

def ofJson : JsonDecoding.Decoder OutputFormat := JsonDecoding.named (all.map name) ofName?

end OutputFormat

private def yamlBool (value : Bool) : YamlNode := .plain (if value then "true" else "false")

private def yamlByte (value : UInt8) : YamlNode := .plain (toString value.toNat)

def Style.toYaml (style : Style) : YamlNode :=
  .mapping [
    ("bold", yamlBool style.bold),
    ("emphasis", yamlBool style.emphasis),
    ("italic", yamlBool style.italic),
    ("strike", yamlBool style.strike),
    ("literal", yamlBool style.literal),
    ("underline", yamlByte style.underline),
    ("size", yamlByte style.size),
    ("color", .text style.color.name)]

def Run.toYaml (run : Run) : YamlNode :=
  .mapping [("state", run.style.toYaml), ("tokens", .sequence (run.words.map .text))]

def Document.toYaml (document : Document) : YamlNode :=
  .mapping [("runs", .sequence (document.map Run.toYaml))]

namespace Token

private def tagYaml (name : String) (closing : Bool) : YamlNode :=
  .tagged "Tag" (.mapping [("name", .text name), ("closing", yamlBool closing)])

def toYaml : Token → YamlNode
  | .text written => .tagged "Text" (.text written)
  | .opening name => tagYaml name false
  | .closing name => tagYaml name true

/-- The token on one line. -/
def line : Token → String
  | .text written => "TEXT " ++ QuotedText.quote written
  | .opening name => "OPEN " ++ name
  | .closing name => "CLOSE " ++ name

/-- One line for each token. -/
def listing (tokens : List Token) : String :=
  String.join (tokens.map fun token => token.line ++ "\n")

end Token

namespace OutputFormat

def renderDocument (format : OutputFormat) (document : Document) : String :=
  match format with
  | simple => document.listing
  | json => document.toJson.fileText
  | yaml => document.toYaml.fileText

def renderTokens (format : OutputFormat) (tokens : List Token) : String :=
  match format with
  | simple => Token.listing tokens
  | json => (JsonValue.array (tokens.map Token.toJson)).fileText
  | yaml => (YamlNode.sequence (tokens.map Token.toYaml)).fileText

end OutputFormat

end StyledMarkup
