import StyledMarkup.Style
import StyledMarkup.Words

/-!
# Documents

A document is a list of runs in reading order, a run a stretch of text in one
style. Running text is kept as its words. Literal text is kept as one entry that
holds the text as it stands; other numbers of entries only occur in documents
that were not read from markup, and every operation accepts them.
-/
namespace StyledMarkup

structure Run where
  style : Style
  /-- The words of the run, or the text of a literal one. -/
  words : List String
  deriving DecidableEq, Repr

namespace Run

/-- The white space between words: space, tab, line feed, carriage return, form feed. -/
def isSeparator (c : Char) : Bool :=
  c == ' ' || c == '\t' || c == '\n' || c == '\r' || c == '\x0c'

def ofText (style : Style) (text : String) : Run :=
  ⟨style, if style.literal then [text] else Words.split isSeparator text⟩

/-- Whether the run holds nothing: no word, or the empty text. -/
def isEmpty (run : Run) : Bool :=
  match run.words with
  | [] => true
  | [word] => run.style.literal && word.isEmpty
  | _ => false

/-- The text of the run as it is written in markup. -/
def text (run : Run) : String :=
  if run.style.literal then String.join run.words else " ".intercalate run.words

/-- Same words in styles that are alike. -/
def alike (a b : Run) : Bool := a.style.alike b.style && a.words == b.words

/-- The run on one line: its style in short form, then its words. -/
def line (run : Run) : String :=
  "\x7b" ++ run.style.shortForm ++ "\x7d [" ++ ", ".intercalate run.words ++ "]"

end Run

abbrev Document := List Run

namespace Document

/-- Run by run the same words in styles that are alike. -/
def alike : Document → Document → Bool
  | [], [] => true
  | a :: as, b :: bs => a.alike b && alike as bs
  | _, _ => false

def allWords (document : Document) : List String := document.flatMap Run.words

/-- One line for each run. -/
def listing (document : Document) : String :=
  String.join (document.map fun run => run.line ++ "\n")

end Document

end StyledMarkup
