import StyledMarkup.Bundled.TomlScalar

/-!
# Tables under construction

A TOML document names its tables in any order, and no table twice. Whether a name
may be used again depends on how its table came about: by a header of its own, by
being mentioned on the way in a header, or on the way in a key with dots. A table
that was only mentioned in a header may still get a header of its own. A table that
a dotted key began may be continued by dotted keys alone. A value is complete as it
stands. A list of tables grows by one with each of its headers, and names below it
mean its last table.
-/
namespace StyledMarkup

/-- How a table came about. -/
inductive TomlOrigin where
  | header | mentioned | dotted
  deriving DecidableEq, Repr

inductive TomlNode where
  | value (value : TomlValue)
  | table (origin : TomlOrigin) (entries : List (String × TomlNode))
  | tables (elements : List (List (String × TomlNode)))
  deriving Repr, Inhabited

abbrev TomlEntries := List (String × TomlNode)

namespace TomlEntries

def node? (entries : TomlEntries) (key : String) : Option TomlNode :=
  (List.find? (fun entry => entry.1 == key) entries).map (·.2)

/-- Replaces the node of a key, or adds one at the end. -/
def put (key : String) (node : TomlNode) : TomlEntries → TomlEntries
  | [] => [(key, node)]
  | entry :: rest => if entry.1 = key then (key, node) :: rest else entry :: put key node rest

/-- Changes the table at a path, which begins the tables that are missing on the way.
The change is told how the table it finds came about. -/
def modify? (isDotted : Bool) (change : TomlOrigin → TomlEntries → Option TomlEntries) :
    List String → TomlOrigin → TomlEntries → Option TomlEntries
  | [], origin, entries => change origin entries
  | key :: path, _, entries =>
      match node? entries key with
      | none =>
          let origin := if isDotted then TomlOrigin.dotted else .mentioned
          (modify? isDotted change path origin []).map fun table =>
            put key (.table origin table) entries
      | some (.value _) => none
      | some (.table origin table) =>
          if isDotted && origin == .header then none
          else
            (modify? isDotted change path origin table).map fun table =>
              put key (.table origin table) entries
      | some (.tables elements) =>
          match elements.getLast? with
          | none => none
          | some last =>
              (modify? isDotted change path .header last).map fun table =>
                put key (.tables (elements.dropLast ++ [table])) entries

/-- Adds a value under a dotted key. -/
def assign? (path : List String) (key : String) (value : TomlValue) (entries : TomlEntries) :
    Option TomlEntries :=
  modify? true
    (fun origin table =>
      if (origin == .dotted) == path.isEmpty || (node? table key).isSome then none
      else some (put key (.value value) table))
    path .header entries

/-- Begins the table of a header. -/
def openTable? (path : List String) (key : String) (entries : TomlEntries) :
    Option TomlEntries :=
  modify? false
    (fun _ table =>
      match node? table key with
      | none => some (put key (.table .header []) table)
      | some (.table .mentioned found) => some (put key (.table .header found) table)
      | _ => none)
    path .header entries

/-- Adds a table to the list of a doubled header. -/
def openElement? (path : List String) (key : String) (entries : TomlEntries) :
    Option TomlEntries :=
  modify? false
    (fun _ table =>
      match node? table key with
      | none => some (put key (.tables [[]]) table)
      | some (.tables elements) => some (put key (.tables (elements ++ [[]])) table)
      | _ => none)
    path .header entries

/-- Adds a value in the table of the last header. -/
def assignUnder? (header : List String) (path : List String) (key : String)
    (value : TomlValue) (entries : TomlEntries) : Option TomlEntries :=
  modify? false (fun _ table => assign? path key value table) header .header entries

end TomlEntries

namespace TomlNode

mutual

/-- The finished value of a node. -/
def finish : TomlNode → TomlValue
  | .value found => found
  | table _ entries => .table (finishEntries entries)
  | tables elements => .array (finishElements elements)

def finishEntries : List (String × TomlNode) → List (String × TomlValue)
  | [] => []
  | (key, node) :: rest => (key, node.finish) :: finishEntries rest

def finishElements : List (List (String × TomlNode)) → List TomlValue
  | [] => []
  | entries :: rest => .table (finishEntries entries) :: finishElements rest

end

end TomlNode

end StyledMarkup
