import StyledMarkup.CommandLine

/-!
# The executable

Reads the files and the standard input that a run may ask for, computes the
outcome, and writes it. Nothing is decided here.
-/
namespace StyledMarkup

/-- The fault that a failed reading of a file stands for. -/
def ReadFault.ofIOError : IO.Error → ReadFault
  | .noFileOrDirectory .. => .missing
  | .inappropriateType .. => .directory
  | error => .other (toString error)

/-- What a file holds, or why it could not be read. -/
def readOutside (path : String) : IO (Except ReadFault ByteArray) := do
  try
    return .ok (← IO.FS.readBinFile path)
  catch error =>
    return .error (.ofIOError error)

/-- Everything on the standard input. -/
def readStandardInput : IO (Except ReadFault ByteArray) := do
  try
    return .ok (← (← IO.getStdin).readBinToEnd)
  catch error =>
    return .error (.ofIOError error)

end StyledMarkup

open StyledMarkup in
def main (arguments : List String) : IO UInt32 := do
  let mut files : List (String × Except ReadFault ByteArray) := []
  for path in CommandLine.filesOf arguments do
    files := files ++ [(path, ← readOutside path)]
  let standard ←
    if CommandLine.readsStandardInput arguments then readStandardInput
    else pure (.ok ByteArray.empty)
  let inputs : Inputs :=
    ⟨fun path => ((files.find? fun entry => entry.1 == path).map (·.2)).getD (.error .missing),
      standard⟩
  let outcome := CommandLine.run arguments inputs
  (← IO.getStdout).putStr outcome.output
  (← IO.getStderr).putStr outcome.errors
  return UInt32.ofNat outcome.status
