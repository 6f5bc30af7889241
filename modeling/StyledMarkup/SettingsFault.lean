import StyledMarkup.DecodeFault

/-!
# What can be wrong with settings

A fault of one setting names the setting and, if it came from a file, the file. A
fault of a whole section names neither.
-/
namespace StyledMarkup

inductive SettingsFault where
  /-- A key that is no path. -/
  | badKey (reason : String)
  /-- A file that is not there or holds no text. -/
  | unreadableFile (reason : String)
  /-- A file that is no TOML document. -/
  | badFile (file : String)
  /-- A setting of another kind. -/
  | wrongType (found : Found) (expected : String) (path : String) (source : Option String)
  /-- A section of another kind. -/
  | wrongSection (found : Found) (kind : String)
  /-- A section given as a list that ends too early. -/
  | tooShort (length : Nat) (kind : String) (size : Nat)
  | missingField (name : String)
  /-- A name that is none of an enumeration's. -/
  | unknownVariant (kind : String) (name : String)
  /-- A value that cannot name a variant of an enumeration. -/
  | noVariant (kind : String)
  /-- A fault that is reported from elsewhere. -/
  | other (text : String)
  deriving DecidableEq, Repr

namespace SettingsFault

/-- Numbers are written without exponent. -/
def numberFormat : Binary64.Format := ⟨.greater, true, none⟩

def describe : Found → String
  | .null => "unit value"
  | .float value => "floating point `" ++ value.text numberFormat ++ "`"
  | found => found.description

def message : SettingsFault → String
  | badKey reason => reason
  | unreadableFile reason => reason
  | badFile file => "invalid TOML in " ++ file
  | wrongType found expected path source =>
      "invalid type: " ++ describe found ++ ", expected " ++ expected ++ " for key " ++
        DecodeFault.inBackquotes path ++
        match source with
        | some file => " in " ++ file
        | none => ""
  | wrongSection found kind => "invalid type: " ++ describe found ++ ", expected " ++ kind
  | tooShort length kind size =>
      "invalid length " ++ toString length ++ ", expected " ++ DecodeFault.recordOf kind size
  | missingField name => "missing field " ++ DecodeFault.inBackquotes name
  | unknownVariant kind name =>
      "enum " ++ kind ++ " does not have variant constructor " ++ name
  | noVariant kind =>
      "value of enum " ++ kind ++
        " should be represented by either string or table with exactly one key"
  | other text => text

end SettingsFault

end StyledMarkup
