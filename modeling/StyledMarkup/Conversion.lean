import StyledMarkup.Compaction
import StyledMarkup.Emission
import StyledMarkup.StyleScope

/-!
# Conversion

Conversion reads markup into a compact document and writes the document as
markup again. Input that is cut still converts, up to the cut; an unknown tag
before the cut makes it fail.
-/
namespace StyledMarkup

structure Conversion where
  document : Document
  markup : String
  truncation : Option Truncation
  deriving DecidableEq, Repr

def Conversion.isTruncated (conversion : Conversion) : Bool := conversion.truncation.isSome

/-- The compact document of markup, and where the input was cut. -/
def readMarkup (markup : String) : Except UnknownTag (Document × Option Truncation) :=
  let stream := tokenize markup
  (Document.ofTokens stream.tokens).map fun document => (document.compact, stream.truncation)

def convert (markup : String) : Except UnknownTag Conversion :=
  (readMarkup markup).map fun (document, truncation) =>
    ⟨document, document.markup, truncation⟩

theorem readMarkup_eq_ok_iff {markup : String} {document : Document}
    {truncation : Option Truncation} :
    readMarkup markup = .ok (document, truncation) ↔
      ∃ runs, Document.ofTokens (tokenize markup).tokens = .ok runs ∧
        document = runs.compact ∧ truncation = (tokenize markup).truncation := by
  unfold readMarkup
  cases hread : Document.ofTokens (tokenize markup).tokens with
  | error unknown => simp [hread, Except.map]
  | ok runs => simp [hread, Except.map, eq_comm]

/-- What is converted is the document that was read. -/
theorem convert_eq_ok_iff {markup : String} {conversion : Conversion} :
    convert markup = .ok conversion ↔
      readMarkup markup = .ok (conversion.document, conversion.truncation) ∧
        conversion.markup = conversion.document.markup := by
  obtain ⟨document, written, truncation⟩ := conversion
  unfold convert
  cases hread : readMarkup markup with
  | error unknown => simp [Except.map]
  | ok read =>
      obtain ⟨found, cut⟩ := read
      simp only [Except.map, Except.ok.injEq, Conversion.mk.injEq, Prod.mk.injEq]
      constructor
      · rintro ⟨rfl, rfl, rfl⟩
        exact ⟨⟨rfl, rfl⟩, rfl⟩
      · rintro ⟨⟨rfl, rfl⟩, rfl⟩
        exact ⟨rfl, rfl, rfl⟩

/-- The conversions that follow one another when the markup that comes out of each
goes into the next. The list ends early with the first that fails. -/
def conversions (markup : String) : Nat → List (Except UnknownTag Conversion)
  | 0 => []
  | times + 1 =>
      match convert markup with
      | .error unknown => [.error unknown]
      | .ok conversion => .ok conversion :: conversions conversion.markup times

/-- A small piece of markup that shows runs in three styles. -/
def sample : String := "<B>bold<r>red and bold</r>just bold</B>"

end StyledMarkup
