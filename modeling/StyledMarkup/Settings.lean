import StyledMarkup.Failure
import StyledMarkup.LogRecord
import StyledMarkup.Rendering

/-!
# Settings of the program

The program has four settings in three sections. They are put together in layers: its own
defaults, a file, and single values that stand for arguments. How layers are put together and
how settings are read from them is left to a library. The program relies on two things: a
single value wins over the layers below it, and a truth value is read as it stands. That files
win over the defaults is the library's affair.
-/
namespace StyledMarkup

structure Settings where
  /-- The format of `inspect`. -/
  format : OutputFormat
  /-- Whether `convert` lists the runs before the markup. -/
  printRuns : Bool
  /-- Whether `convert` refuses input that was cut. -/
  strict : Bool
  /-- The name of a log level, as it was given. -/
  level : String
  deriving DecidableEq, Repr

inductive SettingScalar where
  | null
  | bool (value : Bool)
  | integer (value : Int)
  | float (value : Binary64)
  | string (value : String)
  deriving DecidableEq, Repr

namespace Settings

def logFilter (settings : Settings) : LogFilter := LogFilter.ofSetting settings.level

/-- The keys under which the four settings stand. -/
def keys : List String :=
  ["inspect.format", "convert.print_runs", "convert.strict", "logging.level"]

/-- The lines of the settings below all layers. -/
def defaultLines : List String := [
  "# Default configuration for the sml toolchain.",
  "# User files passed with --config are layered on top of this one.",
  "",
  "[inspect]",
  "# Output format for `sml inspect`: simple, json or yaml",
  "format = \"simple\"",
  "",
  "[convert]",
  "# Print the compacted runs before the re-emitted markup",
  "print_runs = false",
  "# Treat truncated (malformed) input as an error instead of a warning",
  "strict = false",
  "",
  "[logging]",
  "# off, error, warn, info, debug or trace",
  "level = \"warn\""]

def defaults : String := String.join (defaultLines.map (· ++ "\n"))

theorem toList_defaults :
    defaults.toList = defaultLines.flatMap fun line => line.toList ++ ['\n'] := by
  rw [defaults, String.toList_join, List.flatMap_map]
  simp

/-- Reads bytes by the name of a file. -/
abbrev FileReader := String → Except ReadFault ByteArray

end Settings

/-- A library that puts settings together. -/
structure SettingsLibrary where
  /-- Layers that have been put together. -/
  Layers : Type
  /-- Whether a text is a key at all. -/
  checkKey : String → Except SettingsFault Unit
  /-- Lays files, in their order, over a document of defaults and single values over all. -/
  build : Settings.FileReader → (defaults : String) → (files : List String) →
    (values : List (String × SettingScalar)) → Except SettingsFault Layers
  /-- What stands under a key. -/
  get? : Layers → String → Option SettingScalar
  /-- The settings that the layers hold. -/
  read : Layers → Except SettingsFault Settings

namespace SettingsLibrary

/-- What the program relies on. -/
structure IsLawful (library : SettingsLibrary) : Prop where
  /-- Single values under different keys win over files and defaults. -/
  get?_of_build : ∀ {readFile : Settings.FileReader} {defaults : String} {files : List String}
    {values : List (String × SettingScalar)} {layers : library.Layers},
    library.build readFile defaults files values = .ok layers →
      (values.map Prod.fst).Nodup → (∀ entry ∈ values, entry.1 ∈ Settings.keys) →
        ∀ entry ∈ values, library.get? layers entry.1 = some entry.2
  /-- A truth value is what is read for its setting. -/
  flags_of_read : ∀ {layers : library.Layers} {settings : Settings},
    library.read layers = .ok settings → ∀ value : Bool,
      (library.get? layers "convert.print_runs" = some (.bool value) →
        settings.printRuns = value) ∧
      (library.get? layers "convert.strict" = some (.bool value) → settings.strict = value)

/-- The settings from files and single values. Keys are checked before anything is read. -/
def load (library : SettingsLibrary) (readFile : Settings.FileReader) (files : List String)
    (values : List (String × SettingScalar)) : Except SettingsFault Settings := do
  values.forM fun entry => library.checkKey entry.1
  let layers ← library.build readFile Settings.defaults files values
  library.read layers

theorem load_of_checked {library : SettingsLibrary} {values : List (String × SettingScalar)}
    (h : values.forM (fun entry => library.checkKey entry.1) = .ok ())
    (readFile : Settings.FileReader) (files : List String) :
    library.load readFile files values =
      library.build readFile Settings.defaults files values >>= library.read := by
  rw [load, h]
  rfl

end SettingsLibrary

end StyledMarkup
