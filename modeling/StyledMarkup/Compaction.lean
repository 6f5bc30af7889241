import StyledMarkup.Document

/-!
# Compaction

A compact document has no empty run and no two neighbours of one style. One pass
makes a document compact: empty runs are left out, and a run whose style is like
that of the last one kept is taken into it. Running text gains words; literal
text grows at its end. What is kept has the style of the run that came first.
-/
namespace StyledMarkup

/-- Takes the text of `next` into a run of its style. Literal runs join the first
entry of each, which is all there is in a run that was read from markup. -/
def Run.absorb (run next : Run) : Run :=
  if run.style.literal then
    match run.words, next.words with
    | _, [] => run
    | [], text :: _ => { run with words := [text] }
    | head :: rest, text :: _ => { run with words := (head ++ text) :: rest }
  else { run with words := run.words ++ next.words }

namespace Document

/-- Compaction behind a run that is kept and may still grow. -/
def compactFrom (last : Run) : Document → Document
  | [] => [last]
  | run :: rest =>
      if run.isEmpty then compactFrom last rest
      else if last.style.alike run.style then compactFrom (last.absorb run) rest
      else last :: compactFrom run rest

def compact : Document → Document
  | [] => []
  | run :: rest => if run.isEmpty then compact rest else compactFrom run rest

end Document

end StyledMarkup
