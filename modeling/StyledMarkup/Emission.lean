import StyledMarkup.Document
import StyledMarkup.TagStack

/-!
# Writing documents as markup

The writer goes through the runs once. Before a run whose style is not like the
style of the run before it, it writes the edits between the two; then it writes
the text of the run. At the end it closes what is still open.
-/
namespace StyledMarkup

structure Writer where
  /-- The style of the last run written. -/
  style : Style := .initial
  openTags : TagStack := []
  deriving DecidableEq, Repr

namespace Writer

/-- Before the first run. -/
def start : Writer := {}

/-- The edits that the writer puts before a run. -/
def edits (writer : Writer) (run : Run) : List TagEdit :=
  if writer.style.alike run.style then []
  else TagStack.edits writer.style run.style writer.openTags

/-- The writer behind a run. -/
def advance (writer : Writer) (run : Run) : Writer :=
  ⟨run.style, writer.openTags.editAll (writer.edits run)⟩

/-- The tokens for the rest of a document. -/
def write (writer : Writer) : Document → List Token
  | [] => writer.openTags.map .closing
  | run :: rest =>
      (writer.edits run).map TagEdit.token ++ .text run.text :: (writer.advance run).write rest

end Writer

namespace Document

/-- The tags and texts that make up a document's markup. A text may be empty, and
two texts may meet. -/
def tokens (document : Document) : List Token := Writer.start.write document

def markup (document : Document) : String := Token.renderAll document.tokens

end Document

end StyledMarkup
