import StyledMarkup.Arguments

/-!
# Reading arguments

The reader of arguments that comes with the executable. An option is written with two hyphens
and a word or with one hyphen and a letter; letters may share a hyphen, and a value follows in
the same argument or in the next. Behind `--` everything is a path, and so is a single hyphen.

Options that may stand on both sides of the command's name count behind it if they stand
there. Any other repetition of an option is misuse. Every command has an option and the
program a command that ask for help, and an option of the program asks for its version.
-/
namespace StyledMarkup

namespace ArgumentMatches

def addValue (found : ArgumentMatches) (name value : String) :
    Except ArgumentStop ArgumentMatches :=
  if (found.value? name).isSome then .error .misuse
  else .ok { found with values := found.values ++ [(name, value)] }

/-- Notes an option without value. -/
def addFlag (found : ArgumentMatches) (spec : OptionSpec) :
    Except ArgumentStop ArgumentMatches :=
  match spec.kind with
  | .counter => .ok { found with flags := found.flags ++ [spec.name] }
  | .flag =>
      if found.hasFlag spec.name then .error .misuse
      else .ok { found with flags := found.flags ++ [spec.name] }
  | .help => .error .help
  | .version => .error .version
  | .value => .error .misuse

/-- Notes an argument that is no option. -/
def addPath (takesPath : Bool) (found : ArgumentMatches) (path : String) :
    Except ArgumentStop ArgumentMatches :=
  if takesPath then found.addValue "path" path else .error .misuse

end ArgumentMatches

namespace ArgumentReader

def helpOption : OptionSpec := ⟨"help", some 'h', .help, none⟩

def versionOption : OptionSpec := ⟨"version", some 'V', .version, none⟩

/-- The options before the name of a command. -/
def rootOptions (interface : Interface) : List OptionSpec :=
  interface.globals ++ [helpOption, versionOption]

/-- The options behind the name of a command. -/
def optionsOf (interface : Interface) (command : CommandSpec) : List OptionSpec :=
  interface.globals ++ helpOption :: command.options

def looksLikeOption (argument : String) : Bool :=
  argument.startsWith "-" && argument != "-"

/-- An option in words, whose two hyphens are taken off. The name is returned if its
value has to follow. -/
def readLong (specs : List OptionSpec) (found : ArgumentMatches) (text : List Char) :
    Except ArgumentStop (ArgumentMatches × Option String) :=
  let name := String.ofList (text.takeWhile (· != '='))
  match specs.find? fun spec => spec.name == name with
  | none => .error .misuse
  | some spec =>
      match text.dropWhile (· != '='), spec.kind with
      | [], .value => .ok (found, some name)
      | [], _ => (found.addFlag spec).map (·, none)
      | _ :: value, .value => (found.addValue name (String.ofList value)).map (·, none)
      | _, _ => .error .misuse

/-- The letters behind one hyphen. The name of the last is returned if its value has
to follow. -/
def readLetters (specs : List OptionSpec) (found : ArgumentMatches) :
    List Char → Except ArgumentStop (ArgumentMatches × Option String)
  | [] => .ok (found, none)
  | letter :: rest =>
      match specs.find? fun spec => spec.letter == some letter with
      | none => .error .misuse
      | some spec =>
          match spec.kind, rest with
          | .value, [] => .ok (found, some spec.name)
          | .value, '=' :: value =>
              (found.addValue spec.name (String.ofList value)).map (·, none)
          | .value, value => (found.addValue spec.name (String.ofList value)).map (·, none)
          | _, _ =>
              match found.addFlag spec with
              | .error stop => .error stop
              | .ok found => readLetters specs found rest

/-- One argument with options. -/
def readOptions (specs : List OptionSpec) (found : ArgumentMatches) (argument : String) :
    Except ArgumentStop (ArgumentMatches × Option String) :=
  match argument.toList with
  | '-' :: '-' :: name => readLong specs found name
  | letters => readLetters specs found (letters.drop 1)

/-- The arguments behind a command's name. An option whose value has to follow is
`pending`; behind `--` there are only `paths`. -/
def readCommand (specs : List OptionSpec) (takesPath paths : Bool)
    (found : ArgumentMatches) (pending : Option String) :
    List String → Except ArgumentStop ArgumentMatches
  | [] =>
      if pending.isSome || takesPath && (found.value? "path").isNone then .error .misuse
      else .ok found
  | argument :: rest =>
      match pending with
      | some name =>
          if looksLikeOption argument then .error .misuse
          else
            match found.addValue name argument with
            | .error stop => .error stop
            | .ok found => readCommand specs takesPath paths found none rest
      | none =>
          if paths || !looksLikeOption argument then
            match found.addPath takesPath argument with
            | .error stop => .error stop
            | .ok found => readCommand specs takesPath paths found none rest
          else if argument = "--" then readCommand specs takesPath true found none rest
          else
            match readOptions specs found argument with
            | .error stop => .error stop
            | .ok (found, pending) => readCommand specs takesPath paths found pending rest

/-- The arguments up to the name of the command, the name, and those behind it. -/
def readRoot (specs : List OptionSpec) (found : ArgumentMatches) (pending : Option String) :
    List String → Except ArgumentStop (ArgumentMatches × String × List String)
  | [] => .error .misuse
  | argument :: rest =>
      match pending with
      | some name =>
          if looksLikeOption argument then .error .misuse
          else
            match found.addValue name argument with
            | .error stop => .error stop
            | .ok found => readRoot specs found none rest
      | none =>
          if !looksLikeOption argument then .ok (found, argument, rest)
          else if argument = "--" then .error .misuse
          else
            match readOptions specs found argument with
            | .error stop => .error stop
            | .ok (found, pending) => readRoot specs found pending rest

/-- The command `help` tells about the program or about another command. -/
def readHelp (interface : Interface) (arguments : List String) : ArgumentStop :=
  match arguments with
  | [] => .help
  | [name] =>
      if ("help" :: interface.commands.map CommandSpec.name).contains name then .help
      else .misuse
  | _ => .misuse

/-- Of the options that stand on both sides, those behind the command's name count. -/
def shared (interface : Interface) (before behind : ArgumentMatches) : ArgumentMatches where
  values := (behind.values ++ before.values).filter fun entry =>
    interface.globals.any fun spec => spec.name == entry.1
  flags := interface.globals.flatMap fun spec =>
    let count := behind.count spec.name
    List.replicate (if count = 0 then before.count spec.name else count) spec.name

/-- What was found for a command, and what stands for options that are not given. -/
def own (command : CommandSpec) (behind : ArgumentMatches) : ArgumentMatches :=
  { behind with
    values := behind.values ++
      command.options.filterMap fun spec => spec.default?.map fun value => (spec.name, value) }

/-- What the arguments ask for. -/
def bundled : ArgumentReader := fun interface arguments => do
  let (before, name, rest) ← readRoot (rootOptions interface) {} none arguments
  if name = "help" then .error (readHelp interface rest)
  match interface.commands.find? fun command => command.name == name with
  | none => .error .misuse
  | some command =>
      let behind ← readCommand (optionsOf interface command) command.takesPath false {} none rest
      return ⟨name, shared interface before behind, own command behind⟩

end ArgumentReader

end StyledMarkup
