/-!
# Log records

A record says how grave it is, which part of the program wrote it, and what
happened. A filter lets the records of one level and all graver ones pass, or
none.
-/
namespace StyledMarkup

inductive LogLevel where
  | error | warn | info | debug | trace
  deriving DecidableEq, Repr

namespace LogLevel

/-- The gravest level has the least rank. -/
def rank : LogLevel → Nat
  | error => 1
  | warn => 2
  | info => 3
  | debug => 4
  | trace => 5

def name : LogLevel → String
  | error => "ERROR"
  | warn => "WARN"
  | info => "INFO"
  | debug => "DEBUG"
  | trace => "TRACE"

def all : List LogLevel := [error, warn, info, debug, trace]

end LogLevel

/-- The last level that passes; `none` lets nothing pass. -/
abbrev LogFilter := Option LogLevel

namespace LogFilter

def name : LogFilter → String
  | none => "OFF"
  | some level => level.name

def all : List LogFilter := none :: LogLevel.all.map some

/-- The filter of that name in any case of ASCII letters. -/
def ofName? (name : String) : Option LogFilter :=
  all.find? fun filter => filter.name == name.toUpper

/-- What a configured name asks for: names that mean nothing ask for warnings. -/
def ofSetting (name : String) : LogFilter := (ofName? name).getD (some .warn)

def admits (filter : LogFilter) (level : LogLevel) : Bool :=
  match filter with
  | none => false
  | some last => level.rank ≤ last.rank

end LogFilter

structure LogRecord where
  level : LogLevel
  /-- The part of the program that reports. -/
  target : String
  text : String
  deriving DecidableEq, Repr

namespace LogRecord

/-- The line of a log file. -/
def line (record : LogRecord) : String :=
  "[" ++ record.level.name ++ " " ++ record.target ++ "] " ++ record.text ++ "\n"

def admitted (filter : LogFilter) (records : List LogRecord) : List LogRecord :=
  records.filter fun record => filter.admits record.level

end LogRecord

end StyledMarkup
