import StyledMarkup.Conversion
import StyledMarkup.LogRecord
import StyledMarkup.QuotedText

/-!
# What conversion reports

The records of each step of a conversion, in the order of the steps. They are
computed from the same definitions as the conversion, beside it, so that a
result never depends on whether somebody reads the log. When a tag is unknown
the records end with the last token that could be read.
-/
namespace StyledMarkup

/-- The token in words. -/
def Token.report : Token → String
  | .text written => "Text(" ++ QuotedText.quote written ++ ")"
  | .opening name => "Tag \x7b name: " ++ QuotedText.quote name ++ ", closing: false \x7d"
  | .closing name => "Tag \x7b name: " ++ QuotedText.quote name ++ ", closing: true \x7d"

/-- Every token, then the cut if there is one. -/
def TokenStream.log (stream : TokenStream) : List LogRecord :=
  stream.tokens.map (fun token => ⟨.trace, "sml.lexing", "token: " ++ token.report⟩) ++
    stream.truncation.toList.map fun truncation =>
      ⟨.warn, "sml.lexing", truncation.message ++ "; dropping the rest of the input"⟩

/-- Each token that could be read, with the scope behind it. -/
def Scope.log (scope : Scope) : List Token → List LogRecord
  | [] => []
  | token :: tokens =>
      match scope.advance token with
      | .error _ => []
      | .ok next =>
          ⟨.trace, "sml.parsing",
            token.report ++ " -> " ++ next.style.shortForm ++
              " (depth " ++ toString next.depth ++ ")"⟩ ::
            next.log tokens

/-- How many runs compaction found and left. -/
def Document.compactionLog (document : Document) : List LogRecord :=
  [⟨.debug, "sml.compaction",
    "compacted " ++ toString document.length ++ " runs into " ++
      toString document.compact.length⟩]

/-- Each transition, with the open tags around it. -/
def Writer.log (writer : Writer) : Document → List LogRecord
  | [] => []
  | run :: rest =>
      let next := writer.advance run
      let transition : List String :=
        if writer.style.alike run.style then []
        else
          [writer.style.shortForm ++ " -> " ++ run.style.shortForm,
            "tag stack before: " ++ writer.openTags.listing,
            "tag stack after: " ++ next.openTags.listing]
      transition.map (fun text => ⟨.trace, "sml.emitting", text⟩) ++ next.log rest

/-- The records of reading markup into a compact document. -/
def readingLog (markup : String) : List LogRecord :=
  let stream := tokenize markup
  stream.log ++ Scope.outermost.log stream.tokens ++
    match Document.ofTokens stream.tokens with
    | .error _ => []
    | .ok document => document.compactionLog

/-- The records of a conversion. -/
def conversionLog (markup : String) : List LogRecord :=
  readingLog markup ++
    match readMarkup markup with
    | .error _ => []
    | .ok (document, _) => Writer.start.log document

end StyledMarkup
