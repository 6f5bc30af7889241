import StyledMarkup.Bundled.LowerCase
import StyledMarkup.Bundled.SettingKey
import StyledMarkup.Bundled.TomlScalar
import StyledMarkup.Settings

/-!
# Layers of settings

Settings form a tree of tables and lists. Layers are laid over one another: a value
takes the place of what was there, but a table is taken into the table below it,
entry by entry, and so changes nothing if it is empty. Where a path leads through
something that is no table or no list, it is replaced by one.

The names of tables are kept in lower case, except within lists, whose items are
taken as they are. A value from a file remembers the file; a table that was put
together from layers comes from none of them.
-/
namespace StyledMarkup

inductive Setting where
  | scalar (source : Option String) (value : SettingScalar)
  | list (source : Option String) (items : List Setting)
  | table (source : Option String) (entries : List (String × Setting))
  deriving Repr, Inhabited

namespace Setting

def null : Setting := scalar none .null

def emptyTable : Setting := table none []

def source? : Setting → Option String
  | scalar source _ => source
  | list source _ => source
  | table source _ => source

/-- The source and the entries of a table; something else gives way to an empty one. -/
def asTable : Setting → Option String × List (String × Setting)
  | table source entries => (source, entries)
  | _ => (none, [])

def asList : Setting → Option String × List Setting
  | list source items => (source, items)
  | _ => (none, [])

def lookup (key : String) (entries : List (String × Setting)) : Option Setting :=
  (entries.find? fun entry => entry.1 == key).map (·.2)

def putEntry (key : String) (value : Setting) :
    List (String × Setting) → List (String × Setting)
  | [] => [(key, value)]
  | entry :: rest => if entry.1 = key then (key, value) :: rest else entry :: putEntry key value rest

mutual

/-- Lays a value under a name of a table. -/
def overlay (root : Setting) (name : String) (value : Setting) : Setting :=
  let key := LowerCase.lower name
  let (source, entries) := root.asTable
  match value with
  | table _ incoming =>
      let below := (lookup key entries).getD emptyTable
      table source (putEntry key (overlayAll below incoming) entries)
  | other => table source (putEntry key other entries)

/-- Lays each of the entries under its name. -/
def overlayAll (root : Setting) (incoming : List (String × Setting)) : Setting :=
  match incoming with
  | [] => root
  | (name, value) :: rest => overlayAll (overlay root name value) rest

end

/-- Changes what stands under a name of a table. -/
def updateChild (root : Setting) (name : String) (change : Setting → Setting) : Setting :=
  let key := LowerCase.lower name
  let (source, entries) := root.asTable
  table source (putEntry key (change ((lookup key entries).getD null)) entries)

/-- Changes what stands at a position of a list, which grows to hold it. A position
before the first changes nothing. -/
def updateIndex (root : Setting) (position : Int) (change : Setting → Setting) : Setting :=
  let (source, items) := root.asList
  let index := if position < 0 then position + items.length else position
  if index < 0 then list source items
  else
    let grown := items ++ List.replicate (index.toNat + 1 - items.length) null
    list source (grown.modify index.toNat change)

/-- Lays a value where the steps lead. -/
def overlayAt (root : Setting) (value : Setting) : SettingStep → List SettingStep → Setting
  | .child name, [] => root.overlay name value
  | .child name, step :: steps => root.updateChild name fun child => overlayAt child value step steps
  | .index position, [] => root.updateIndex position fun _ => value
  | .index position, step :: steps =>
      root.updateIndex position fun item => overlayAt item value step steps

/-- Lays a value where the key leads. -/
def set (root : Setting) (key : SettingKey) (value : Setting) : Setting :=
  root.overlayAt value (.child key.name) key.steps

mutual

/-- The settings that a TOML value stands for, with the file that it comes from. -/
def ofToml (source : Option String) : TomlValue → Setting
  | .bool value => scalar source (.bool value)
  | .integer value => scalar source (.integer value)
  | .float value => scalar source (.float value)
  | .string value => scalar source (.string value)
  | .dateTime spelling => scalar source (.string spelling)
  | .array items => list source (ofTomlItems source items)
  | .table entries => table source (ofTomlEntries source entries)

def ofTomlItems (source : Option String) : List TomlValue → List Setting
  | [] => []
  | item :: rest => ofToml source item :: ofTomlItems source rest

def ofTomlEntries (source : Option String) :
    List (String × TomlValue) → List (String × Setting)
  | [] => []
  | (key, value) :: rest => (key, ofToml source value) :: ofTomlEntries source rest

end

/-- Lays a document over the settings. The names at its top may be paths; a name that is
no path stands for itself. -/
def overlayDocument (root : Setting) (source : Option String)
    (entries : List (String × TomlValue)) : Setting :=
  entries.foldl
    (fun root (name, value) =>
      match SettingKey.ofText name with
      | .ok key => root.set key (ofToml source value)
      | .error _ => root.overlay name (ofToml source value))
    root

/-- What stands where the steps lead. -/
def valueAt? : Setting → List SettingStep → Option Setting
  | setting, [] => some setting
  | table _ entries, .child name :: steps =>
      (lookup (LowerCase.lower name) entries).bind fun child => child.valueAt? steps
  | list _ items, .index position :: steps =>
      let index := if position < 0 then position + items.length else position
      if index < 0 then none
      else items[index.toNat]?.bind fun item => item.valueAt? steps
  | _, _ => none

/-- The single value under a key. -/
def get? (root : Setting) (name : String) : Option SettingScalar :=
  match SettingKey.ofText name with
  | .error _ => none
  | .ok key =>
      match root.valueAt? (.child key.name :: key.steps) with
      | some (scalar _ value) => some value
      | _ => none

end Setting

end StyledMarkup
