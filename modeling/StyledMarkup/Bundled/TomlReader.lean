import StyledMarkup.Bundled.TomlDocument

/-!
# Reading TOML documents

A document is a sequence of lines: headers, and keys with values. Lists may extend
over several lines and hold comments; tables in braces stand on one line. Lists and
tables nest less than eighty deep, and a key has less than eighty parts.

Every step takes at least one character, so the length of the text bounds the
number of steps. A document that is not well formed is refused as a whole.
-/
namespace StyledMarkup.TomlReader

/-- The depth of lists and tables, and the length of keys, that is refused. -/
def depthLimit : Nat := 80

def skipBlanks (text : List Char) : List Char := text.dropWhile TomlText.isBlank

/-- What follows a line break. -/
def afterBreak? : List Char → Option (List Char)
  | '\n' :: rest => some rest
  | '\r' :: '\n' :: rest => some rest
  | _ => none

/-- Passes over a comment, if one begins here. -/
def skipComment : List Char → List Char
  | '#' :: rest => rest.dropWhile TomlText.isPlain
  | rest => rest

/-- What follows the current line, on which only blanks and a comment may be left. -/
def endLine? (text : List Char) : Option (List Char) :=
  match skipComment (skipBlanks text) with
  | [] => some []
  | rest => afterBreak? rest

/-- Passes over blanks, line breaks and comments. -/
def skipLines : Nat → List Char → List Char
  | 0, text => text
  | steps + 1, text =>
      let rest := skipComment (skipBlanks text)
      match afterBreak? rest with
      | some rest => skipLines steps rest
      | none => rest

def isBareKeyChar (c : Char) : Bool := c.isAlphanum || c == '_' || c == '-'

/-- One part of a key. -/
def readKeyPart (text : List Char) : Option (String × List Char) :=
  match text with
  | '"' :: rest => (TomlText.readBasic rest).map fun (key, rest) => (String.ofList key, rest)
  | '\'' :: rest => (TomlText.readLiteral rest).map fun (key, rest) => (String.ofList key, rest)
  | _ =>
      let key := text.takeWhile isBareKeyChar
      if key.isEmpty then none else some (String.ofList key, text.dropWhile isBareKeyChar)

/-- A key of any length: the path to its table, its last part, and what follows it. -/
def readKeyParts : Nat → List Char → Option (List String × String × List Char)
  | 0, _ => none
  | steps + 1, text =>
      match readKeyPart (skipBlanks text) with
      | none => none
      | some (part, rest) =>
          match skipBlanks rest with
          | '.' :: rest =>
              (readKeyParts steps rest).map fun (path, key, rest) => (part :: path, key, rest)
          | rest => some ([], part, rest)

/-- A key whose length is within the limit. -/
def readKey (steps : Nat) (text : List Char) : Option (List String × String × List Char) :=
  (readKeyParts steps text).filter fun (path, _) => path.length + 1 < depthLimit

mutual

/-- A value within as many lists and tables as `depth` says. -/
def readValue (depth : Nat) : Nat → List Char → Option (TomlValue × List Char)
  | 0, _ => none
  | steps + 1, text =>
      match text with
      | '[' :: rest =>
          if depth + 1 ≥ depthLimit then none
          else (readItems (depth + 1) steps rest).map fun (items, rest) => (.array items, rest)
      | '{' :: rest =>
          if depth + 1 ≥ depthLimit then none
          else
            match skipBlanks rest with
            | '}' :: rest => some (.table [], rest)
            | rest =>
                (readEntries (depth + 1) steps [] rest).map fun (entries, rest) =>
                  (.table (TomlNode.finishEntries entries), rest)
      | c :: _ =>
          if c == '"' || c == '\'' then
            (TomlText.read? text).map fun (written, rest) => (.string (String.ofList written), rest)
          else
            let (word, rest) := TomlWord.span text
            (TomlWord.read? word).map (·, rest)
      | [] => none

/-- The items of a list up to its closing bracket, before which a comma may stand. -/
def readItems (depth : Nat) : Nat → List Char → Option (List TomlValue × List Char)
  | 0, _ => none
  | steps + 1, text =>
      match skipLines steps text with
      | ']' :: rest => some ([], rest)
      | text =>
          match readValue depth steps text with
          | none => none
          | some (item, rest) =>
              match skipLines steps rest with
              | ']' :: rest => some ([item], rest)
              | ',' :: rest =>
                  (readItems depth steps rest).map fun (items, rest) => (item :: items, rest)
              | _ => none

/-- The entries of a table in braces up to the closing brace, at least one. -/
def readEntries (depth : Nat) : Nat → TomlEntries → List Char →
    Option (TomlEntries × List Char)
  | 0, _, _ => none
  | steps + 1, entries, text =>
      match readKey steps text with
      | some (path, key, '=' :: rest) =>
          match readValue depth steps (skipBlanks rest) with
          | none => none
          | some (value, rest) =>
              match TomlEntries.assign? path key value entries with
              | none => none
              | some entries =>
                  match skipBlanks rest with
                  | '}' :: rest => some (entries, rest)
                  | ',' :: rest => readEntries depth steps entries rest
                  | _ => none
      | _ => none

end

/-- What has been read: the document so far, and the path of the last header. -/
structure Progress where
  entries : TomlEntries := []
  header : List String := []

/-- A header, whose opening brackets are read, with the given closing brackets. -/
def readHeader (steps : Nat) (closing : List Char)
    (begin? : List String → String → TomlEntries → Option TomlEntries)
    (progress : Progress) (text : List Char) : Option (Progress × List Char) := do
  let (path, key, rest) ← readKey steps text
  if !closing.isPrefixOf rest then none
  let entries ← begin? path key progress.entries
  let rest ← endLine? (rest.drop closing.length)
  return (⟨entries, path ++ [key]⟩, rest)

/-- A key with its value. -/
def readAssignment (steps : Nat) (progress : Progress) (text : List Char) :
    Option (Progress × List Char) := do
  let (path, key, rest) ← readKey steps text
  let rest ← TomlWord.char? '=' rest
  let (value, rest) ← readValue 0 steps (skipBlanks rest)
  let entries ← progress.entries.assignUnder? progress.header path key value
  let rest ← endLine? rest
  return (⟨entries, progress.header⟩, rest)

def readStatement (steps : Nat) (progress : Progress) :
    List Char → Option (Progress × List Char)
  | '[' :: '[' :: rest => readHeader steps [']', ']'] TomlEntries.openElement? progress rest
  | '[' :: rest => readHeader steps [']'] TomlEntries.openTable? progress rest
  | text => readAssignment steps progress text

def readStatements : Nat → Progress → List Char → Option TomlEntries
  | 0, _, _ => none
  | steps + 1, progress, text =>
      match skipLines steps text with
      | [] => some progress.entries
      | text =>
          match readStatement steps progress text with
          | some (progress, rest) => readStatements steps progress rest
          | none => none

/-- The entries of a document. A byte order mark may come first. -/
def read? (document : List Char) : Option (List (String × TomlValue)) :=
  let chars :=
    match document with
    | '\ufeff' :: rest => rest
    | chars => chars
  (readStatements (2 * chars.length + 2) {} chars).map TomlNode.finishEntries

end StyledMarkup.TomlReader
