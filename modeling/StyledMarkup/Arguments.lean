/-!
# The command line as it is declared

The program has four commands, two options that stand on both sides of a command's name, and
options of single commands. The reading of arguments is left to a library, which is given the
declaration. It answers with the command, the values of its options and of its path, and the
flags, each under its name.

The program relies on two things in the answer: a path that is required is there, and a flag
is on if and only if it is given. Behind `--` everything is a path.
-/
namespace StyledMarkup

inductive OptionKind where
  /-- Takes a value, and stands at most once. -/
  | value
  /-- Takes no value, and stands at most once. -/
  | flag
  /-- Takes no value, and is counted. -/
  | counter
  /-- Ends the reading of arguments at once. -/
  | help
  | version
  deriving DecidableEq, Repr

structure OptionSpec where
  name : String
  letter : Option Char
  kind : OptionKind
  /-- The value that stands for one that is not given. -/
  default? : Option String := none
  deriving DecidableEq, Repr

structure CommandSpec where
  name : String
  /-- Whether the command takes a path, which it then needs. -/
  takesPath : Bool
  options : List OptionSpec
  deriving DecidableEq, Repr

structure Interface where
  /-- Options that stand on both sides of a command's name. -/
  globals : List OptionSpec
  commands : List CommandSpec
  deriving DecidableEq, Repr

/-- Why arguments ask for no command to be run. -/
inductive ArgumentStop where
  | misuse | help | version
  deriving DecidableEq, Repr

/-- Values and flags that were found, under their names. -/
structure ArgumentMatches where
  values : List (String × String) := []
  flags : List String := []
  deriving DecidableEq, Repr

namespace ArgumentMatches

def value? (found : ArgumentMatches) (name : String) : Option String :=
  (found.values.find? fun entry => entry.1 == name).map (·.2)

def hasFlag (found : ArgumentMatches) (name : String) : Bool := found.flags.contains name

def count (found : ArgumentMatches) (name : String) : Nat := found.flags.count name

end ArgumentMatches

/-- What arguments say. -/
structure Arguments where
  command : String
  /-- The options that stand on both sides of the command's name. -/
  shared : ArgumentMatches
  /-- The options of the command, and its path under the name `path`. -/
  own : ArgumentMatches
  deriving DecidableEq, Repr

/-- A library that reads arguments by a declaration. -/
abbrev ArgumentReader := Interface → List String → Except ArgumentStop Arguments

/-- The option stands among the arguments, before any `--`. -/
def Given (option : String) (arguments : List String) : Prop :=
  option ∈ arguments.takeWhile (· ≠ "--")

instance (option : String) (arguments : List String) : Decidable (Given option arguments) :=
  inferInstanceAs (Decidable (option ∈ arguments.takeWhile (· ≠ "--")))

/-- What the program relies on. -/
structure ArgumentReader.IsLawful (reader : ArgumentReader) (interface : Interface) : Prop where
  /-- A path that a command needs is there. -/
  path : ∀ {arguments : List String} {found : Arguments},
    reader interface arguments = .ok found → ∀ command ∈ interface.commands,
      command.name = found.command → command.takesPath = true →
        ∃ path, found.own.value? "path" = some path
  /-- A flag in words is on if and only if it is given. -/
  flag : ∀ {arguments : List String} {found : Arguments},
    reader interface arguments = .ok found → ∀ command ∈ interface.commands,
      command.name = found.command → ∀ option ∈ command.options,
        option.kind = .flag → option.letter = none →
          (found.own.hasFlag option.name = true ↔ Given ("--" ++ option.name) arguments)

end StyledMarkup
