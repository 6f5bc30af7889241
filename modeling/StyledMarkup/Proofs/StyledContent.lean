import StyledMarkup.Proofs.NormalForm

/-!
# Styled content

The content of a document comes in pieces that nothing divides further: the words of running
text and the characters of literal text, each in its style as far as the text shows it.
Compaction changes how this content is spread over runs and nothing else. No piece is lost
or moved, no word is split or joined to another, and none gets a style that is not like its
own, though literal runs that differ in emphasis become one.

Literal text has to stand in one entry for this, or in none. Of a literal run with several
entries only the first is taken over when the run is joined to another.
-/
namespace StyledMarkup

/-- A piece of content, with what its text shows of its style. -/
inductive Atom where
  | word (style : Style) (word : String)
  | character (style : Style) (character : Char)
  deriving DecidableEq, Repr

namespace Run

/-- Literal text that stands in one entry at most. -/
def IsUndivided (run : Run) : Prop := run.style.literal = true → run.words.length ≤ 1

instance (run : Run) : Decidable run.IsUndivided := inferInstanceAs (Decidable (_ → _))

theorem IsUndivided.absorb {a : Run} (h : a.IsUndivided) (b : Run) :
    (a.absorb b).IsUndivided := by
  intro hliteral
  rw [absorb_style] at hliteral
  have hlength := h hliteral
  obtain ⟨style, words⟩ := a
  cases words <;> cases hnext : b.words <;> simp_all [Run.absorb]

/-- A run that takes in another holds the text of both. -/
theorem join_words_absorb {a b : Run} (ha : a.IsUndivided) (hb : b.IsUndivided)
    (h : a.style.literal = b.style.literal) :
    String.join (a.absorb b).words = String.join a.words ++ String.join b.words := by
  cases hliteral : a.style.literal with
  | false => rw [absorb_words hliteral, String.join_append]
  | true =>
      have hfirst := ha hliteral
      have hsecond := hb (h ▸ hliteral)
      cases hnext : b.words with
      | nil => simp [absorb, hliteral, hnext]
      | cons text others =>
          obtain rfl : others = [] := by simpa [hnext] using hsecond
          cases hwords : a.words with
          | nil => simp [absorb, hliteral, hnext, hwords]
          | cons head rest =>
              obtain rfl : rest = [] := by simpa [hwords] using hfirst
              simp [absorb, hliteral, hnext, hwords]

/-- The words of running text, or the characters of literal text. -/
def atoms (run : Run) : List Atom :=
  if run.style.literal then
    run.words.flatMap fun text => text.toList.map (.character run.style.visible)
  else run.words.map (.word run.style.visible)

theorem atoms_of_running {run : Run} (h : run.style.literal = false) :
    run.atoms = run.words.map (.word run.style.visible) :=
  if_neg (by simp [h])

theorem atoms_of_literal {run : Run} (h : run.style.literal = true) :
    run.atoms = (String.join run.words).toList.map (.character run.style.visible) := by
  rw [atoms, if_pos h, String.toList_join, List.map_flatMap]

theorem atoms_of_isEmpty {run : Run} (h : run.isEmpty = true) : run.atoms = [] := by
  unfold isEmpty at h
  split at h <;> simp_all [atoms]

/-- A run that takes in one of its style holds the content of both. -/
theorem atoms_absorb {a b : Run} (halike : a.style.alike b.style = true) (ha : a.IsUndivided)
    (hb : b.IsUndivided) : (a.absorb b).atoms = a.atoms ++ b.atoms := by
  have hsame := Style.literal_of_alike halike
  have hvisible := Style.alike_iff.1 halike
  cases hliteral : a.style.literal with
  | false =>
      have hgrown : (a.absorb b).style.literal = false := by rw [absorb_style, hliteral]
      rw [atoms_of_running hgrown, atoms_of_running hliteral,
        atoms_of_running (hsame.symm.trans hliteral), absorb_style, absorb_words hliteral,
        List.map_append, hvisible]
  | true =>
      have hgrown : (a.absorb b).style.literal = true := by rw [absorb_style, hliteral]
      rw [atoms_of_literal hgrown, atoms_of_literal hliteral,
        atoms_of_literal (hsame.symm.trans hliteral), absorb_style, join_words_absorb ha hb hsame,
        String.toList_append, List.map_append, hvisible]

end Run

namespace Document

def atoms (document : Document) : List Atom := document.flatMap Run.atoms

/-- Compaction keeps the content of a document, if literal text is in one entry. -/
theorem atoms_compact {document : Document} (h : ∀ run ∈ document, run.IsUndivided) :
    document.compact.atoms = document.atoms :=
  flatMap_compact (fun _ _ hempty => Run.atoms_of_isEmpty hempty)
    (fun _ b _ ha _ => ha.absorb b) (fun _ _ halike ha hb => Run.atoms_absorb halike ha hb) h

/-- Literal runs that differ in emphasis and have empty runs between them, and empty words. -/
def scatteredDocument : Document :=
  [⟨{ bold := true }, []⟩, ⟨{ literal := true, emphasis := true }, ["a "]⟩,
    ⟨{ color := .red }, []⟩, ⟨{ literal := true, italic := true }, [""]⟩,
    ⟨{ literal := true }, [" b"]⟩, ⟨{ literal := true }, []⟩, ⟨{}, ["c", ""]⟩, ⟨{}, ["", "d"]⟩]

theorem atoms_compact_scatteredDocument :
    (∀ run ∈ scatteredDocument, run.IsUndivided) ∧
      scatteredDocument.compact =
        [⟨{ literal := true, emphasis := true }, ["a  b"]⟩, ⟨{}, ["c", "", "", "d"]⟩] ∧
      scatteredDocument.compact.atoms = scatteredDocument.atoms := by
  have h : ∀ run ∈ scatteredDocument, run.IsUndivided := by decide
  exact ⟨h, by decide, atoms_compact h⟩

/-- The second entry of a literal run is lost when another run takes that one in. -/
example :
    let document : Document := [⟨{ literal := true }, ["a"]⟩, ⟨{ literal := true }, ["b", "c"]⟩]
    document.compact = [⟨{ literal := true }, ["ab"]⟩] ∧
      document.compact.atoms ≠ document.atoms := by
  decide

end Document

end StyledMarkup
