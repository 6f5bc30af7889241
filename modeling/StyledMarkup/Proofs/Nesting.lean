import StyledMarkup.Proofs.LevelTurns
import StyledMarkup.Proofs.ReadDocuments

/-!
# Nesting of written tags

Reading forgives a closing tag that names another tag than the one it closes, and
one that closes nothing. Writing makes no use of this: each closing tag that is
written names the innermost open tag, and in the end every tag is closed.

The open tags may have lost touch with the styles, since what is closed on the way
to another tag is not opened again. But they err on one side only. Bold is never
opened inside bold, and a tag for bold or for a color is open only at a run that
asks for bold or for a color. This holds at every run of every document, be it
compact or not.
-/
namespace StyledMarkup

namespace TagStack

/-- The open tags behind a token. A closing tag has to name the innermost of them. -/
def after? (stack : TagStack) : Token → Option TagStack
  | .text _ => some stack
  | .opening name => some (name :: stack)
  | .closing name => if stack.head? = some name then some stack.tail else none

/-- The open tags behind all tokens, if each closing tag names the innermost then open. -/
def afterAll? (stack : TagStack) (tokens : List Token) : Option TagStack :=
  tokens.foldlM after? stack

@[simp] theorem afterAll?_nil (stack : TagStack) : stack.afterAll? [] = some stack := rfl

theorem afterAll?_cons (stack : TagStack) (token : Token) (tokens : List Token) :
    stack.afterAll? (token :: tokens) = (stack.after? token).bind (afterAll? · tokens) := rfl

@[simp] theorem afterAll?_text (stack : TagStack) (written : String) (tokens : List Token) :
    stack.afterAll? (.text written :: tokens) = stack.afterAll? tokens := rfl

theorem afterAll?_append {stack next : TagStack} {a : List Token}
    (h : stack.afterAll? a = some next) (b : List Token) :
    stack.afterAll? (a ++ b) = next.afterAll? b := by
  rw [afterAll?, List.foldlM_append]
  change (stack.afterAll? a).bind (afterAll? · b) = _
  rw [h, Option.bind_some]

/-- Names can be closed as they stand on the stack, from the innermost outwards. -/
theorem afterAll?_closing (names outer : TagStack) :
    afterAll? (names ++ outer) (names.map .closing) = some outer := by
  induction names with
  | nil => rfl
  | cons name names ih => simpa [afterAll?_cons, after?] using ih

theorem afterAll?_closes {stack : TagStack} {names : List String} (h : names <+: stack) :
    stack.afterAll? ((names.map TagEdit.closes).map TagEdit.token) =
      some (stack.editAll (names.map .closes)) := by
  obtain ⟨outer, rfl⟩ := h
  rw [editAll_closes, List.drop_left, List.map_map]
  exact afterAll?_closing names outer

theorem afterAll?_boldEdits (before after : Style) (stack : TagStack) :
    stack.afterAll? ((boldEdits before after stack).map TagEdit.token) =
      some (stack.editAll (boldEdits before after stack)) := by
  unfold boldEdits
  split
  · rfl
  · split
    · rfl
    · exact afterAll?_closes <| throughBold_prefix stack

theorem afterAll?_emphasisEdits (before after : Style) (stack : TagStack) :
    stack.afterAll? ((emphasisEdits before after).map TagEdit.token) =
      some (stack.editAll (emphasisEdits before after)) := by
  unfold emphasisEdits
  split <;> rfl

theorem afterAll?_colorEdits (before after : Style) (stack : TagStack) :
    stack.afterAll? ((colorEdits before after stack).map TagEdit.token) =
      some (stack.editAll (colorEdits before after stack)) := by
  unfold colorEdits
  split
  · rfl
  · split
    · rfl
    · exact afterAll?_closes <| throughColors_prefix stack

/-- The edits of a transition are nested as they are written, whatever is open before. -/
theorem afterAll?_edits (before after : Style) (stack : TagStack) :
    stack.afterAll? ((edits before after stack).map TagEdit.token) =
      some (stack.editAll (edits before after stack)) := by
  have hbold := afterAll?_boldEdits before after stack
  have hemphasis := afterAll?_emphasisEdits before after
    (stack.editAll (boldEdits before after stack))
  have hcolor := afterAll?_colorEdits before after
    ((stack.editAll (boldEdits before after stack)).editAll (emphasisEdits before after))
  rw [edits, List.map_append, List.map_append, List.append_assoc, afterAll?_append hbold,
    afterAll?_append hemphasis, hcolor, editAll_append, editAll_append]

/-- Fusing texts does not change which tags are open. -/
theorem afterAll?_fuse (stack : TagStack) (tokens : List Token) :
    stack.afterAll? (Token.fuse tokens) = stack.afterAll? tokens :=
  Token.foldlM_fuse (fun _ _ => rfl) stack tokens

/-- If bold is never opened inside bold, then it is open once at most. -/
theorem count_boldTag_le_one {stack : TagStack} (h : boldTag ∉ stack.underBold) :
    stack.count boldTag ≤ 1 := by
  induction stack with
  | nil => simp
  | cons name rest ih =>
      by_cases hname : name = boldTag
      · rw [underBold, if_pos hname] at h
        rw [hname, List.count_cons_self, List.count_eq_zero.2 h]
      · rw [underBold, if_neg hname] at h
        rw [List.count_cons_of_ne hname]
        exact ih h

end TagStack

namespace Writer

theorem afterAll?_edits (writer : Writer) (run : Run) :
    writer.openTags.afterAll? ((writer.edits run).map TagEdit.token) =
      some (writer.advance run).openTags := by
  unfold advance edits
  split
  · rfl
  · exact TagStack.afterAll?_edits _ _ _

/-- Every tag that is open before the document or opened in it is closed by its name. -/
theorem afterAll?_write (writer : Writer) (document : Document) :
    writer.openTags.afterAll? (writer.write document) = some [] := by
  induction document generalizing writer with
  | nil =>
      have hclosing := TagStack.afterAll?_closing writer.openTags []
      rwa [List.append_nil] at hclosing
  | cons run rest ih =>
      rw [write, TagStack.afterAll?_append (afterAll?_edits writer run), TagStack.afterAll?_text]
      exact ih (writer.advance run)

end Writer

namespace Document

/-- At every run at most one tag for bold is open, and a tag for bold or for a color only
if the run asks for it. -/
theorem openAt_restrained (before : Document) (run : Run) :
    (before.openAt run).count TagStack.boldTag ≤ 1 ∧
      (TagStack.boldTag ∈ before.openAt run → run.style.bold = true) ∧
      ((before.openAt run).hasColor = true → run.style.color ≠ .default) := by
  have hfits : (before.openAt run).levels.Fits run.style.look :=
    Writer.fits_advance (Writer.fits_advanceAll Writer.isSound_start.fits before) run
  refine ⟨TagStack.count_boldTag_le_one fun hmem => ?_, fun hmem => ?_, fun hcolor => ?_⟩
  · -- A second `B` would be outside the innermost one.
    have htwice : (before.openAt run).levels.underBold.bold = true := TagStack.look_bold.2 hmem
    rw [hfits.once] at htwice
    exact absurd htwice (by simp)
  · exact hfits.bold (TagStack.look_bold.2 hmem)
  · exact hfits.color (TagStack.hasColor_iff_look.1 hcolor)

/-- A run may ask for bold with no tag open: going back to the default color has closed the
one that was opened inside the color. -/
example : openAt [⟨{ color := .red }, ["a"]⟩, ⟨{ bold := true, color := .red }, ["b"]⟩]
    ⟨{ bold := true }, ["c"]⟩ = [] := by decide

/-- The tags in the markup of a document are ones that a writer opens, each closing tag
names the innermost tag then open, and in the end none is open. -/
theorem nested_markup {document : Document}
    (h : ∀ run ∈ document, ∀ word ∈ run.words, '<' ∉ word.toList) :
    (tokenize document.markup).truncation = none ∧
      (∀ name, .opening name ∈ (tokenize document.markup).tokens → TagStack.Writable name) ∧
      TagStack.afterAll? [] (tokenize document.markup).tokens = some [] := by
  rw [tokenize_markup h]
  refine ⟨rfl, fun name hname => ?_, ?_⟩
  · exact Writer.writable_of_mem_write _ document (Token.opening_mem_of_mem_fuse hname)
  · rw [TagStack.afterAll?_fuse]
    exact Writer.afterAll?_write Writer.start document

/-- Styles that end in another order than they began in, with text that looks like a tag. -/
def crossingDocument : Document :=
  [⟨{ color := .red }, ["a"]⟩, ⟨{ bold := true, color := .red }, ["/B>"]⟩,
    ⟨{ bold := true, emphasis := true }, ["b"]⟩, ⟨{ literal := true, size := 12 }, []⟩]

/-- The tags of this markup are nested. Those of markup that ends the styles in the order in
which they began are not. -/
theorem nested_markup_crossingDocument :
    (∀ run ∈ crossingDocument, ∀ word ∈ run.words, '<' ∉ word.toList) ∧
      crossingDocument.markup = "<r>a<B>/B><Em></Em></B></r>b<Em></Em>" ∧
      (tokenize "<r>a<B>/B><Em></Em></B></r>b<Em></Em>").truncation = none ∧
      (∀ name, .opening name ∈ (tokenize "<r>a<B>/B><Em></Em></B></r>b<Em></Em>").tokens →
        TagStack.Writable name) ∧
      TagStack.afterAll? [] (tokenize "<r>a<B>/B><Em></Em></B></r>b<Em></Em>").tokens =
        some [] ∧
      TagStack.afterAll? [] (tokenize "<r>a<B>/B></r><Em>b</B></Em>").tokens = none := by
  have h : ∀ run ∈ crossingDocument, ∀ word ∈ run.words, '<' ∉ word.toList := by decide
  have hmarkup : crossingDocument.markup = "<r>a<B>/B><Em></Em></B></r>b<Em></Em>" := by
    decide +kernel
  have hnested := nested_markup h
  rw [hmarkup] at hnested
  exact ⟨h, hmarkup, hnested.1, hnested.2.1, hnested.2.2, by decide +kernel⟩

end Document

end StyledMarkup
