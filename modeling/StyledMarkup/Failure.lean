import StyledMarkup.MarkupToken
import StyledMarkup.SettingsFault
import StyledMarkup.TagContent

/-!
# Failures

Everything that ends a command without a result. A failure is reported in one
line; behind some failures stands a narrower one, which has a text of its own.
-/
namespace StyledMarkup

/-- Why an input could not be read. -/
inductive ReadFault where
  | missing
  | directory
  /-- Bytes that are no UTF-8. -/
  | notText
  | other (text : String)
  deriving DecidableEq, Repr

def ReadFault.message : ReadFault → String
  | missing => "No such file or directory (os error 2)"
  | directory => "Is a directory (os error 21)"
  | notText => "stream did not contain valid UTF-8"
  | other text => text

inductive Failure where
  | unreadable (fault : ReadFault)
  | settings (fault : SettingsFault)
  | unknownTag (unknown : UnknownTag)
  /-- Input that was cut, where a cut is not allowed. -/
  | truncated (truncation : Truncation)
  | invalidFormat (name : String)
  | serialization (text : String)
  deriving DecidableEq, Repr

namespace Failure

def message : Failure → String
  | unreadable fault => "IO error: " ++ fault.message
  | settings fault => "Configuration error: " ++ fault.message
  | unknownTag unknown => unknown.message
  | truncated truncation => "Input truncated: " ++ truncation.message
  | invalidFormat name => "Invalid format: " ++ name
  | serialization text => "Serialization error: " ++ text

/-- The text of the failure behind this one. -/
def cause? : Failure → Option String
  | unreadable fault => some fault.message
  | settings fault => some fault.message
  | unknownTag unknown => some unknown.message
  | truncated truncation => some truncation.message
  | invalidFormat _ => none
  | serialization _ => none

end Failure

end StyledMarkup
