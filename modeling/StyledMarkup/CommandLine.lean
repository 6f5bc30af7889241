import StyledMarkup.Bundled.ArgumentReader
import StyledMarkup.Bundled.LayeredSettings
import StyledMarkup.Program

/-!
# The program with its libraries

The executable brings a reader of arguments and a library of settings of its own. Which files a
run may ask for follows from its arguments, so everything that it can read is read beforehand.
-/
namespace StyledMarkup

def Libraries.bundled : Libraries := ⟨ArgumentReader.bundled, SettingsLibrary.layered⟩

/-- The settings from files and single values, as the executable puts them together. -/
def Settings.load (read : Settings.FileReader) (files : List String)
    (values : List (String × SettingScalar)) : Except SettingsFault Settings :=
  SettingsLibrary.layered.load read files values

namespace CommandLine

/-- One run of the executable. -/
def run (arguments : List String) (inputs : Inputs) : Outcome :=
  Program.run .bundled arguments inputs

/-- The names of the files that a run may ask for. -/
def filesOf (arguments : List String) : List String :=
  match ArgumentReader.bundled Program.interface arguments with
  | .error _ => []
  | .ok found =>
      (found.shared.value? "config").toList.flatMap Settings.candidates ++
        (found.own.value? "path").toList

/-- Whether a run may read the standard input. -/
def readsStandardInput (arguments : List String) : Bool := (filesOf arguments).contains "-"

end CommandLine

end StyledMarkup
