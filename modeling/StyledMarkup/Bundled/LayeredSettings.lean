import StyledMarkup.Bundled.Setting
import StyledMarkup.Bundled.TomlReader

/-!
# Settings in layers

The library of settings that comes with the executable. Files are TOML documents, laid over
the defaults in the order in which they are given, and single values are laid over all of
them. What comes out is read leniently: a truth value may be given as a number or a word, a
level as a number, a section as a list of its values. What other settings there are does not
matter.

A document may name a setting twice, in capital and in small letters. Which of the two counts
is not fixed by the rules that are followed here; the later one does.
-/
namespace StyledMarkup

namespace Setting

/-! ## Reading single settings -/

def found : Setting → Found
  | scalar _ .null => .null
  | scalar _ (.bool value) => .bool value
  | scalar _ (.integer value) => .integer value
  | scalar _ (.float value) => .float value
  | scalar _ (.string value) => .string value
  | list .. => .sequence
  | table .. => .map

def isNonzero : Binary64 → Bool
  | .finite _ significand _ => significand != 0
  | _ => true

def trueWords : List String := ["1", "true", "on", "yes"]

def falseWords : List String := ["0", "false", "off", "no"]

/-- A truth value, also as a number that may be zero or as one of eight words. -/
def readBool (path : String) (setting : Setting) : Except SettingsFault Bool :=
  let wrong (found : Found) : Except SettingsFault Bool :=
    .error (.wrongType found "a boolean" path setting.source?)
  match setting with
  | scalar _ (.bool value) => .ok value
  | scalar _ (.integer value) => .ok (value != 0)
  | scalar _ (.float value) => .ok (isNonzero value)
  | scalar _ (.string value) =>
      let word := LowerCase.lower value
      if trueWords.contains word then .ok true
      else if falseWords.contains word then .ok false
      else wrong (.string word)
  | other => wrong other.found

/-- A text, or the text of a number or a truth value. -/
def readText (path : String) (setting : Setting) : Except SettingsFault String :=
  match setting with
  | scalar _ (.string value) => .ok value
  | scalar _ (.bool value) => .ok (if value then "true" else "false")
  | scalar _ (.integer value) => .ok (toString value)
  | scalar _ (.float value) => .ok (value.text ⟨.greater, false, none⟩)
  | other => .error (.wrongType other.found "a string" path setting.source?)

/-- The name of a format in any case, or a table whose only key is that name. -/
def readFormat (setting : Setting) : Except SettingsFault OutputFormat :=
  let named (name : String) : Except SettingsFault OutputFormat :=
    match OutputFormat.ofName? (LowerCase.lower name) with
    | some format => .ok format
    | none => .error (.unknownVariant "OutputFormat" name)
  match setting with
  | scalar _ (.string name) => named name
  | table _ [(name, _)] => named name
  | _ => .error (.noVariant "OutputFormat")

/-! ## Reading sections -/

/-- A setting of a section: its name and the fault of a value that cannot be read. -/
structure Field where
  name : String
  fault? : String → Setting → Option SettingsFault

def Field.ofReader {α : Type} (name : String)
    (read : String → Setting → Except SettingsFault α) : Field :=
  ⟨name, fun path setting =>
    match read path setting with
    | .error fault => some fault
    | .ok _ => none⟩

/-- A setting that was found, with the path to it. -/
structure Entry where
  name : String
  path : String
  value : Setting

/-- The entries of a section that is a table: the first fault of those that are there,
and else the first that is missing. -/
def ofEntries (title : String) (fields : List Field) (entries : List (String × Setting)) :
    Except SettingsFault (List Entry) :=
  let path (field : Field) : String := title ++ "." ++ field.name
  let fault? := fields.findSome? fun field =>
    (lookup field.name entries).bind (field.fault? (path field))
  match fault? with
  | some fault => .error fault
  | none =>
      fields.mapM fun field =>
        match lookup field.name entries with
        | some value => .ok ⟨field.name, path field, value⟩
        | none => .error (.missingField field.name)

/-- The entries of a section that is a list, of which `index` are read already. -/
def ofItems (title kind : String) (size index : Nat) :
    List Field → List Setting → Except SettingsFault (List Entry)
  | [], _ => .ok []
  | _ :: _, [] => .error (.tooShort index kind size)
  | field :: fields, value :: rest =>
      let path := title ++ "[" ++ toString index ++ "]"
      match field.fault? path value with
      | some fault => .error fault
      | none =>
          (ofItems title kind size (index + 1) fields rest).map (⟨field.name, path, value⟩ :: ·)

/-- The entries of the section with the given title. -/
def readSection (title kind : String) (fields : List Field) (root : Setting) :
    Except SettingsFault (List Entry) :=
  match lookup title root.asTable.2 with
  | none => .error (.missingField title)
  | some (table _ entries) => ofEntries title fields entries
  | some (list _ items) => ofItems title kind fields.length 0 fields items
  | some other => .error (.wrongSection other.found kind)

def readEntry {α : Type} (read : String → Setting → Except SettingsFault α) (name : String)
    (entries : List Entry) : Except SettingsFault α :=
  match entries.find? fun entry => entry.name == name with
  | some entry => read entry.path entry.value
  | none => .error (.missingField name)

end Setting

namespace Settings

open Setting

/-- The settings that a tree holds. -/
def ofSetting (root : Setting) : Except SettingsFault Settings := do
  let readFormat (_ : String) (setting : Setting) := setting.readFormat
  let inspect ← readSection "inspect" "struct InspectConfig" [.ofReader "format" readFormat] root
  let convert ← readSection "convert" "struct ConvertConfig"
    [.ofReader "print_runs" readBool, .ofReader "strict" readBool] root
  let logging ← readSection "logging" "struct LoggingConfig" [.ofReader "level" readText] root
  return {
    format := ← readEntry readFormat "format" inspect
    printRuns := ← readEntry readBool "print_runs" convert
    strict := ← readEntry readBool "strict" convert
    level := ← readEntry readText "level" logging }

/-- A name without the parts that lead nowhere. -/
def plainName (name : String) : String :=
  let parts := (name.toList.splitOnP (· == '/')).filter fun part =>
    !part.isEmpty && part != ['.']
  (if name.startsWith "/" then "/" else "") ++ "/".intercalate (parts.map String.ofList)

/-- The names under which a file of settings is looked for. -/
def candidates (name : String) : List String :=
  let plain := plainName name
  if plain.isEmpty || plain == "/" then [name] else [name, plain ++ ".toml"]

/-- The first of the names that is a file, with what it holds. -/
def findFile (read : FileReader) : List String → Option (String × ByteArray)
  | [] => none
  | name :: rest =>
      match read name with
      | .ok bytes => some (plainName name, bytes)
      | .error _ => findFile read rest

/-- The name and the entries of a file of settings. -/
def readFile (read : FileReader) (name : String) :
    Except SettingsFault (String × List (String × TomlValue)) :=
  match findFile read (candidates name) with
  | none => .error (.unreadableFile ("configuration file \"" ++ name ++ "\" not found"))
  | some (file, bytes) =>
      match String.fromUTF8? bytes with
      | none => .error (.unreadableFile ReadFault.notText.message)
      | some text =>
          match TomlReader.read? text.toList with
          | none => .error (.badFile file)
          | some entries => .ok (file, entries)

/-- The files, in order, over a tree. -/
def overlayFiles (read : FileReader) : List String → Setting → Except SettingsFault Setting
  | [], root => .ok root
  | name :: rest, root =>
      match readFile read name with
      | .error fault => .error fault
      | .ok (file, entries) => overlayFiles read rest (root.overlayDocument (some file) entries)

/-- Adds a single value to those that are laid over the files. Of two for one key the
later counts. -/
def putOverride (key : SettingKey) (value : SettingScalar) :
    List (SettingKey × SettingScalar) → List (SettingKey × SettingScalar)
  | [] => [(key, value)]
  | entry :: rest =>
      if entry.1 = key then (key, value) :: rest else entry :: putOverride key value rest

def readKey (name : String) : Except SettingsFault SettingKey :=
  match SettingKey.ofText name with
  | .ok key => .ok key
  | .error fault => .error (.badKey fault.message)

def overrides (values : List (String × SettingScalar)) :
    Except SettingsFault (List (SettingKey × SettingScalar)) :=
  values.foldlM
    (fun overrides entry => (readKey entry.1).map fun key => putOverride key entry.2 overrides) []

def readDefaults (defaults : List Char) : Except SettingsFault Setting :=
  match TomlReader.read? defaults with
  | none => .error (.badFile "")
  | some entries => .ok (Setting.emptyTable.overlayDocument none entries)

/-- Files over the defaults, and single values over both. -/
def build (read : FileReader) (defaults : List Char) (files : List String)
    (values : List (String × SettingScalar)) : Except SettingsFault Setting := do
  let overrides ← overrides values
  let base ← readDefaults defaults
  let layered ← overlayFiles read files base
  return overrides.foldl (fun root entry => root.set entry.1 (.scalar none entry.2)) layered

end Settings

namespace SettingsLibrary

/-- The library of the executable. -/
def layered : SettingsLibrary where
  Layers := Setting
  checkKey name := (Settings.readKey name).map fun _ => ()
  build readFile defaults := Settings.build readFile defaults.toList
  get? := Setting.get?
  read := Settings.ofSetting

end SettingsLibrary

end StyledMarkup
