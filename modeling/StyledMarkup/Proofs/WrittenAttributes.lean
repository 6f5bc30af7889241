import Mathlib.Data.List.Forall2
import StyledMarkup.Emission
import StyledMarkup.Proofs.NormalForm

/-!
# What markup depends on

Tags are written for bold, emphasis and color. Whether any are written before a run is
decided by all of its style, though: the writer passes over a run whose style is like the
one before it. In a compact document this decides nothing. Neighbours are never alike there,
and before the first run, where the writer may find its own style again, the transition
writes no tag.

So the markup of a compact document is that of the document in which every style is reduced
to the attributes that tags are written for, and every run to its text.
-/
namespace StyledMarkup

/-- The attributes that tags are written for, all others turned off. -/
def Style.tagged (style : Style) : Style :=
  { bold := style.bold, emphasis := style.emphasis, color := style.color }

/-- The run as far as its markup goes: its text in one piece, in the tagged attributes. -/
def Run.tagged (run : Run) : Run := ⟨run.style.tagged, [run.text]⟩

@[simp] theorem Run.text_tagged (run : Run) : run.tagged.text = run.text := by
  have hrunning : run.tagged.style.literal = false := rfl
  rw [text, if_neg (by simp [hrunning])]
  exact String.intercalate_singleton

namespace TagStack

theorem edits_tagged (before after : Style) (stack : TagStack) :
    edits before.tagged after.tagged stack = edits before after stack := rfl

@[simp] theorem edits_self (style : Style) (stack : TagStack) : edits style style stack = [] := by
  simp [edits, boldEdits, emphasisEdits, colorEdits]

end TagStack

namespace Writer

/-- A run of another style is not passed over. -/
theorem edits_of_distinct {writer : Writer} {run : Run}
    (h : writer.style.alike run.style = false) :
    writer.edits run = TagStack.edits writer.style run.style writer.openTags :=
  if_neg (by simp [h])

/-- Behind running text only a run of the same style is passed over, for which there is
nothing to write. -/
theorem edits_of_running {writer : Writer} (h : writer.style.literal = false) (run : Run) :
    writer.edits run = TagStack.edits writer.style run.style writer.openTags := by
  cases halike : writer.style.alike run.style with
  | false => exact edits_of_distinct halike
  | true =>
      have hrun : run.style.literal = false := (Style.literal_of_alike halike).symm.trans h
      have hstyle : writer.style = run.style := (Style.alike_iff_eq h hrun).1 halike
      rw [edits, if_pos halike, hstyle, TagStack.edits_self]

/-- The writer goes through the transition to the first run and does not pass it over. -/
def Enters (writer : Writer) (document : Document) : Prop :=
  ∀ run ∈ document.head?,
    writer.edits run = TagStack.edits writer.style run.style writer.openTags

theorem enters_of_running {writer : Writer} (h : writer.style.literal = false)
    (document : Document) : writer.Enters document :=
  fun run _ => edits_of_running h run

theorem enters_start (document : Document) : start.Enters document :=
  enters_of_running rfl document

theorem Enters.edits {writer : Writer} {run : Run} {rest : Document}
    (h : writer.Enters (run :: rest)) :
    writer.edits run = TagStack.edits writer.style run.style writer.openTags :=
  h run rfl

theorem enters_advance (writer : Writer) {run : Run} {rest : Document}
    (h : List.IsChain (fun a b : Run => a.style.alike b.style = false) (run :: rest)) :
    (writer.advance run).Enters rest := by
  intro next hnext
  cases rest with
  | nil => simp at hnext
  | cons first rest =>
      obtain rfl : first = next := by simpa using hnext
      exact edits_of_distinct h.rel

/-- The writer as far as its markup goes. -/
def tagged (writer : Writer) : Writer := ⟨writer.style.tagged, writer.openTags⟩

/-- What a writer writes without passing over runs is decided by the tagged attributes. -/
theorem write_tagged {writer : Writer} {document : Document} (hfirst : writer.Enters document)
    (hdistinct : document.IsChain fun a b => a.style.alike b.style = false) :
    writer.tagged.write (document.map Run.tagged) = writer.write document := by
  induction document generalizing writer with
  | nil => rfl
  | cons run rest ih =>
      have hedits : writer.tagged.edits run.tagged = writer.edits run := by
        rw [hfirst.edits, edits_of_running rfl]
        exact TagStack.edits_tagged _ _ _
      have hadvance : writer.tagged.advance run.tagged = (writer.advance run).tagged := by
        rw [advance, hedits]
        rfl
      rw [List.map_cons, write, write, hedits, hadvance, Run.text_tagged,
        ih (enters_advance writer hdistinct) hdistinct.of_cons]

end Writer

namespace Document

theorem map_eq_of_forall₂ {f : Run → Run} {a b : Document}
    (h : List.Forall₂ (fun x y => f x = f y) a b) : a.map f = b.map f := by
  rwa [← List.forall₂_eq_eq_eq, List.forall₂_map_left_iff, List.forall₂_map_right_iff]

/-- The markup of a compact document shows nothing but texts and tagged attributes. -/
theorem IsCompact.tokens_tagged {document : Document} (h : document.IsCompact) :
    tokens (document.map Run.tagged) = document.tokens :=
  Writer.write_tagged (Writer.enters_start document) h.distinct

/-- Compact documents that agree run by run in text, bold, emphasis and color have the same
markup, whatever their other attributes are and wherever their runs are literal. -/
theorem markup_eq_of_agree {a b : Document} (ha : a.IsCompact) (hb : b.IsCompact)
    (h : List.Forall₂ (fun x y : Run => x.text = y.text ∧ x.style.bold = y.style.bold ∧
      x.style.emphasis = y.style.emphasis ∧ x.style.color = y.style.color) a b) :
    a.markup = b.markup := by
  have htagged : a.map Run.tagged = b.map Run.tagged := by
    refine map_eq_of_forall₂ (h.imp fun x y hrun => ?_)
    obtain ⟨htext, hbold, hemphasis, hcolor⟩ := hrun
    simp [Run.tagged, Style.tagged, htext, hbold, hemphasis, hcolor]
  rw [markup, markup, ← ha.tokens_tagged, ← hb.tokens_tagged, htagged]

/-- Runs in bold, emphasis and color alone, the first in no style at all. -/
def barePages : Document :=
  [⟨{}, ["a"]⟩, ⟨{ bold := true, color := .red }, ["b", "c"]⟩, ⟨{ emphasis := true }, ["d"]⟩,
    ⟨{ color := .red }, ["e"]⟩]

/-- The same texts in the same tagged attributes, with other attributes and literal runs. -/
def ornatePages : Document :=
  [⟨{ literal := true, size := 9 }, ["", "a"]⟩,
    ⟨{ bold := true, color := .red, literal := true, underline := 200 }, ["b c"]⟩,
    ⟨{ emphasis := true, italic := true }, ["d"]⟩,
    ⟨{ color := .red, strike := true, literal := true }, ["e"]⟩]

theorem markup_ornatePages :
    barePages.IsCompact ∧ ornatePages.IsCompact ∧
      List.Forall₂ (fun x y : Run => x.text = y.text ∧ x.style.bold = y.style.bold ∧
        x.style.emphasis = y.style.emphasis ∧ x.style.color = y.style.color)
        barePages ornatePages ∧
      barePages.markup = ornatePages.markup := by
  have hbare : barePages.IsCompact := by decide
  have hornate : ornatePages.IsCompact := by decide
  have hagree : List.Forall₂ (fun x y : Run => x.text = y.text ∧ x.style.bold = y.style.bold ∧
      x.style.emphasis = y.style.emphasis ∧ x.style.color = y.style.color)
      barePages ornatePages := by decide
  exact ⟨hbare, hornate, hagree, markup_eq_of_agree hbare hornate hagree⟩

/-- In a document that is not compact a literal run may be passed over, and its emphasis with
it. -/
example :
    markup [⟨{ literal := true }, ["a"]⟩, ⟨{ literal := true, emphasis := true }, ["b"]⟩] = "ab" ∧
      markup [⟨{}, ["a"]⟩, ⟨{ emphasis := true }, ["b"]⟩] = "a<Em>b</Em>" := by
  decide

end Document

end StyledMarkup
