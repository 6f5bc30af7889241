import StyledMarkup.Arguments
import StyledMarkup.Console
import StyledMarkup.ConversionLog
import StyledMarkup.Settings

/-!
# The program

A run reads its arguments, puts its settings together, and runs a command, which reads an
input and prints. It ends with a status and with what it has printed on two channels. Arguments
and settings are read by libraries; all else is a function of what the files and the standard
input hold.

What an unusable list of arguments is answered with, beyond the version, is left out.
-/
namespace StyledMarkup

/-- What a run can read. -/
structure Inputs where
  file : Settings.FileReader
  standard : Except ReadFault ByteArray

/-- The text of an input; a hyphen stands for the standard input. -/
def Inputs.read (inputs : Inputs) (path : String) : Except Failure String :=
  match if path = "-" then inputs.standard else inputs.file path with
  | .error fault => .error (.unreadable fault)
  | .ok bytes =>
      match String.fromUTF8? bytes with
      | some text => .ok text
      | none => .error (.unreadable .notText)

/-- What a run leaves behind. -/
structure Outcome where
  status : Nat
  output : String
  errors : String
  deriving DecidableEq, Repr

structure Libraries where
  arguments : ArgumentReader
  settings : SettingsLibrary

namespace Command

/-- A format that an option names. -/
def readFormat (name : String) : Except Failure OutputFormat :=
  match OutputFormat.ofName? name with
  | some format => .ok format
  | none => .error (.invalidFormat name)

/-- A strict run does not go on with markup that was cut. -/
def refuseCut (settings : Settings) (conversion : Conversion) : Procedure Unit :=
  match conversion.truncation with
  | some truncation => if settings.strict then throw (.failed (.truncated truncation)) else pure ()
  | none => pure ()

/-- Prints the runs if the settings ask for them. -/
def listRuns (settings : Settings) (document : Document) : Procedure Unit :=
  if settings.printRuns then Procedure.print document.listing else pure ()

/-- Notes where a stream of tokens was cut. -/
def noteCut (stream : TokenStream) : Procedure Unit :=
  match stream.truncation with
  | some truncation => Procedure.report ("Note: input truncated: " ++ truncation.message ++ "\n")
  | none => pure ()

/-- Converts markup, and reports on it in any case. -/
def convertText (filter : LogFilter) (markup : String) : Procedure Conversion := do
  Procedure.log filter (conversionLog markup)
  Procedure.ofExcept ((StyledMarkup.convert markup).mapError .unknownTag)

def convert (settings : Settings) (filter : LogFilter) (inputs : Inputs) (path : String) :
    Procedure Unit := do
  let markup ← Procedure.ofExcept (inputs.read path)
  let conversion ← convertText filter markup
  refuseCut settings conversion
  listRuns settings conversion.document
  Procedure.print (conversion.markup ++ "\n")

def inspect (settings : Settings) (filter : LogFilter) (inputs : Inputs) (path : String) :
    Procedure Unit := do
  let markup ← Procedure.ofExcept (inputs.read path)
  Procedure.log filter (readingLog markup)
  let (document, _) ← Procedure.ofExcept ((readMarkup markup).mapError .unknownTag)
  Procedure.print (settings.format.renderDocument document)

def tokens (filter : LogFilter) (inputs : Inputs) (path format : String) : Procedure Unit := do
  let format ← Procedure.ofExcept (readFormat format)
  let markup ← Procedure.ofExcept (inputs.read path)
  let stream := tokenize markup
  Procedure.log filter stream.log
  Procedure.print (format.renderTokens stream.tokens)
  noteCut stream

def sample (filter : LogFilter) : Procedure Unit := do
  let conversion ← convertText filter StyledMarkup.sample
  Procedure.print conversion.document.listing
  Procedure.print (conversion.markup ++ "\n")

end Command

namespace Program

/-- The options and commands of the program. -/
def interface : Interface where
  globals := [⟨"config", some 'c', .value, none⟩, ⟨"verbose", some 'v', .counter, none⟩]
  commands := [
    ⟨"convert", true, [⟨"runs", none, .flag, none⟩, ⟨"strict", none, .flag, none⟩]⟩,
    ⟨"inspect", true, [⟨"format", some 'f', .value, none⟩]⟩,
    ⟨"tokens", true, [⟨"format", some 'f', .value, some "json"⟩]⟩,
    ⟨"sample", false, []⟩]

/-- The single values that the options of a command lay over the settings. The format of
`inspect` is checked before anything is read. -/
def values (found : Arguments) : Except Failure (List (String × SettingScalar)) :=
  match found.command with
  | "convert" =>
      .ok ((if found.own.hasFlag "runs" then [("convert.print_runs", .bool true)] else []) ++
        if found.own.hasFlag "strict" then [("convert.strict", .bool true)] else [])
  | "inspect" =>
      match found.own.value? "format" with
      | some format => (Command.readFormat format).map fun _ => [("inspect.format", .string format)]
      | none => .ok []
  | _ => .ok []

def settings (library : SettingsLibrary) (inputs : Inputs) (found : Arguments) :
    Except Failure Settings := do
  let values ← values found
  (library.load inputs.file (found.shared.value? "config").toList values).mapError .settings

/-- The log records that are shown: more of them the more often that is asked for. -/
def logFilter (settings : Settings) (found : Arguments) : LogFilter :=
  match found.shared.count "verbose" with
  | 0 => settings.logFilter
  | 1 => some .info
  | 2 => some .debug
  | _ => some .trace

/-- Runs the command that the arguments name. -/
def command (settings : Settings) (inputs : Inputs) (found : Arguments) : Procedure Unit :=
  let filter := logFilter settings found
  match found.command with
  | "convert" => do
      let path ← Procedure.demand (found.own.value? "path")
      Command.convert settings filter inputs path
  | "inspect" => do
      let path ← Procedure.demand (found.own.value? "path")
      Command.inspect settings filter inputs path
  | "tokens" => do
      let format ← Procedure.demand (found.own.value? "format")
      let path ← Procedure.demand (found.own.value? "path")
      Command.tokens filter inputs path format
  | "sample" => Command.sample filter
  | _ => throw .panicked

def program (library : SettingsLibrary) (inputs : Inputs) (found : Arguments) : Procedure Unit := do
  let settings ← Procedure.ofExcept (settings library inputs found)
  command settings inputs found

def failureLine (failure : Failure) : String := "Error: " ++ failure.message ++ "\n"

/-- How a run ends that has printed nothing before. The report of a panic is left out. -/
def outcome (procedure : Procedure Unit) : Outcome :=
  match procedure.perform {} with
  | (.ok (), console) => ⟨0, console.output, console.errors⟩
  | (.error (.failed failure), console) =>
      ⟨1, console.output, console.errors ++ failureLine failure⟩
  | (.error .panicked, console) => ⟨101, console.output, console.errors⟩

def version : String := "sml 0.1.0\n"

/-- How a run ends that runs no command. -/
def stopped : ArgumentStop → Outcome
  | .version => ⟨0, version, ""⟩
  | .help => ⟨0, "", ""⟩
  | .misuse => ⟨2, "", ""⟩

/-- One run of the program. -/
def run (libraries : Libraries) (arguments : List String) (inputs : Inputs) : Outcome :=
  match libraries.arguments interface arguments with
  | .error stop => stopped stop
  | .ok found => outcome (program libraries.settings inputs found)

end Program

end StyledMarkup
