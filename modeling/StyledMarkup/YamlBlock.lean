import StyledMarkup.YamlScalar

/-!
# YAML in block style

Collections are laid out with one entry on each line. An entry stands two columns
to the right of the collection that holds it; the items of a sequence that is the
value of a key stand under the key itself. An empty collection is a pair of
brackets.
-/
namespace StyledMarkup

inductive YamlNode where
  /-- A truth value or a number, in its own spelling. -/
  | plain (spelling : String)
  | text (text : String)
  | sequence (items : List YamlNode)
  | mapping (entries : List (String × YamlNode))
  | tagged (tag : String) (node : YamlNode)
  deriving Repr, Inhabited

/-- A line and the column in which it begins. The text may end in a break of its own. -/
structure YamlLine where
  column : Nat
  text : List Char
  deriving DecidableEq, Repr

namespace YamlLine

def render (line : YamlLine) : String :=
  let ended := (line.text.getLast?.map YamlScalar.isBreak).getD false
  String.ofList (List.replicate line.column ' ' ++ line.text ++ if ended then [] else ['\n'])

/-- A line inside a scalar: one that is only a break is not indented. -/
def inScalar (column : Nat) (text : List Char) : YamlLine :=
  match text with
  | [c] => if YamlScalar.isBreak c then ⟨0, text⟩ else ⟨column, text⟩
  | _ => ⟨column, text⟩

end YamlLine

/-- What a node puts on the line of its key or dash, and the lines below. A block
collection puts nothing there. -/
structure YamlPlacement where
  head : List Char
  body : List YamlLine
  /-- Whether the body is a collection, the first line of which may follow a dash. -/
  isBlock : Bool

namespace YamlPlacement

def inline (head : List Char) : YamlPlacement := ⟨head, [], false⟩

def block (body : List YamlLine) : YamlPlacement := ⟨[], body, true⟩

/-- The lines of an item whose dash stands in the given column. -/
def asItem (column : Nat) (placement : YamlPlacement) : List YamlLine :=
  match placement.isBlock && placement.head.isEmpty, placement.body with
  | true, first :: rest => ⟨column, ['-', ' '] ++ first.text⟩ :: rest
  | _, body => ⟨column, ['-', ' '] ++ placement.head⟩ :: body

/-- The lines of an entry whose key stands in the given column. -/
def asEntry (column : Nat) (key : String) (placement : YamlPlacement) : List YamlLine :=
  let head := if placement.head.isEmpty then [] else ' ' :: placement.head
  ⟨column, key.toList ++ [':'] ++ head⟩ :: placement.body

end YamlPlacement

namespace YamlNode

mutual

/-- The placement of a node in a collection at `outer`; a mapping below it begins in
column `inner`, a sequence in column `items`. -/
def place (inner items : Nat) : YamlNode → YamlPlacement
  | plain spelling => .inline spelling.toList
  | text written =>
      let (first, rest) := YamlScalar.lines written
      ⟨first, rest.map (YamlLine.inScalar inner), false⟩
  | sequence nodes =>
      if nodes.isEmpty then .inline ['[', ']'] else .block (itemLines items nodes)
  | mapping entries =>
      if entries.isEmpty then .inline ['{', '}'] else .block (entryLines inner entries)
  | tagged tag node =>
      let placement := place inner inner node
      let head := if placement.head.isEmpty then [] else ' ' :: placement.head
      ⟨'!' :: tag.toList ++ head, placement.body, placement.isBlock⟩

def itemLines (column : Nat) : List YamlNode → List YamlLine
  | [] => []
  | node :: rest => (place (column + 2) (column + 2) node).asItem column ++ itemLines column rest

def entryLines (column : Nat) : List (String × YamlNode) → List YamlLine
  | [] => []
  | (key, node) :: rest =>
      (place (column + 2) column node).asEntry column key ++ entryLines column rest

end

/-- The text of a file that holds the node. -/
def fileText (node : YamlNode) : String :=
  let placement := place 0 0 node
  let first : List YamlLine := if placement.head.isEmpty then [] else [⟨0, placement.head⟩]
  String.join ((first ++ placement.body).map YamlLine.render)

end YamlNode

end StyledMarkup
