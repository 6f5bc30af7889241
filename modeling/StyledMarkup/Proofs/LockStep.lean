import Mathlib.Data.List.Infix
import StyledMarkup.Emission
import StyledMarkup.Proofs.OpenTags
import StyledMarkup.Proofs.ScopeTrace
import StyledMarkup.Proofs.WordText

/-!
# Writer and reader in step

A writer keeps the names of its open tags, a reader the styles it has to return
to. The two are in step: behind every tag that was written, the reader is in the
style that the open tags stand for, and what it has saved are the styles that
their outer parts stand for. So a run is read back in the style of the tags that
are open before its text, whatever its own style is.

Nothing is asked of the document but that no word contains a `<`.
-/
namespace StyledMarkup

namespace TagStack

/-- Where a reader stands inside the open tags. -/
def scope (stack : TagStack) : Scope := ⟨stack.shown, stack.tails.tail.map shown⟩

@[simp] theorem scope_nil : scope [] = .outermost := rfl

theorem scope_cons (name : String) (rest : TagStack) :
    scope (name :: rest) = ⟨shown (name :: rest), rest.shown :: rest.scope.saved⟩ := by
  cases rest <;> simp [scope]

/-- One edit takes the reader where it takes the writer. -/
theorem advance_scope (stack : TagStack) (edit : TagEdit)
    (h : ∀ name, edit = .opens name → Writable name) :
    stack.scope.advance edit.token = .ok (stack.edit edit).scope := by
  cases edit with
  | opens name =>
      have happly := apply_shown (h name rfl) stack
      change (stack.shown.apply name).map _ = _
      rw [happly]
      exact congrArg Except.ok (scope_cons name stack).symm
  | closes name =>
      cases stack with
      | nil => rfl
      | cons top rest =>
          rw [scope_cons]
          rfl

theorem advanceAll_scope (stack : TagStack) {edits : List TagEdit}
    (h : ∀ name, .opens name ∈ edits → Writable name) :
    stack.scope.advanceAll (edits.map TagEdit.token) = .ok (stack.editAll edits).scope := by
  induction edits generalizing stack with
  | nil => rfl
  | cons edit edits ih =>
      have hedit := advance_scope stack edit fun name hname =>
        h name (hname ▸ List.mem_cons_self)
      rw [List.map_cons, Scope.advanceAll_cons hedit]
      exact ih _ fun name hname => h name (List.mem_cons_of_mem _ hname)

/-- Closing everything that is open leads back outside all tags. -/
theorem advanceAll_closing (stack : TagStack) :
    stack.scope.advanceAll (stack.map Token.closing) = .ok .outermost := by
  induction stack with
  | nil => rfl
  | cons name rest ih =>
      have hclose := advance_scope (name :: rest) (.closes name) (by simp)
      exact (Scope.advanceAll_cons hclose _).trans ih

end TagStack

namespace Writer

/-- The writer behind several runs. -/
def advanceAll (writer : Writer) (document : Document) : Writer := document.foldl advance writer

/-- The tokens for runs that others follow, before anything is closed. -/
def writeRuns (writer : Writer) : Document → List Token
  | [] => []
  | run :: rest =>
      (writer.edits run).map TagEdit.token ++ .text run.text ::
        (writer.advance run).writeRuns rest

@[simp] theorem advanceAll_nil (writer : Writer) : writer.advanceAll [] = writer := rfl

@[simp] theorem advanceAll_cons (writer : Writer) (run : Run) (rest : Document) :
    writer.advanceAll (run :: rest) = (writer.advance run).advanceAll rest := rfl

@[simp] theorem advanceAll_append (writer : Writer) (a b : Document) :
    writer.advanceAll (a ++ b) = (writer.advanceAll a).advanceAll b := List.foldl_append

theorem write_append (writer : Writer) (a b : Document) :
    writer.write (a ++ b) = writer.writeRuns a ++ (writer.advanceAll a).write b := by
  induction a generalizing writer with
  | nil => rfl
  | cons run a ih => simp [write, writeRuns, ih]

theorem writable_of_mem_edits {writer : Writer} {run : Run} {name : String}
    (h : .opens name ∈ writer.edits run) : TagStack.Writable name := by
  unfold edits at h
  split at h
  · simp at h
  · exact TagStack.writable_of_opens_mem h

/-- Only names that can be written are ever open. -/
theorem writable_advance {writer : Writer} (h : ∀ name ∈ writer.openTags, TagStack.Writable name)
    (run : Run) : ∀ name ∈ (writer.advance run).openTags, TagStack.Writable name := by
  intro name hname
  rcases TagStack.mem_editAll hname with hname | hname
  · exact h name hname
  · exact writable_of_mem_edits hname

theorem writable_advanceAll {writer : Writer}
    (h : ∀ name ∈ writer.openTags, TagStack.Writable name) (document : Document) :
    ∀ name ∈ (writer.advanceAll document).openTags, TagStack.Writable name := by
  induction document generalizing writer with
  | nil => exact h
  | cons run rest ih => exact ih (writable_advance h run)

theorem writable_start : ∀ name ∈ start.openTags, TagStack.Writable name := by
  simp [start]

theorem scope_edits (writer : Writer) (run : Run) :
    writer.openTags.scope.advanceAll ((writer.edits run).map TagEdit.token) =
      .ok (writer.advance run).openTags.scope :=
  TagStack.advanceAll_scope _ fun _ hname => writable_of_mem_edits hname

theorem scope_writeRuns (writer : Writer) (document : Document) :
    writer.openTags.scope.advanceAll (writer.writeRuns document) =
      .ok (writer.advanceAll document).openTags.scope := by
  induction document generalizing writer with
  | nil => rfl
  | cons run rest ih =>
      rw [writeRuns, Scope.advanceAll_append (scope_edits writer run), Scope.advanceAll_text]
      exact ih (writer.advance run)

/-- The reader leaves every tag by the end. -/
theorem scope_write (writer : Writer) (document : Document) :
    writer.openTags.scope.advanceAll (writer.write document) = .ok .outermost := by
  have happend := write_append writer document []
  rw [List.append_nil] at happend
  rw [happend, Scope.advanceAll_append (scope_writeRuns writer document)]
  exact TagStack.advanceAll_closing _

end Writer

theorem TagStack.legible_opening {name : String} (h : Writable name) :
    (Token.opening name).Legible := by
  rcases h with rfl | rfl | ⟨color, hcolor⟩
  · simp [Token.Legible, boldTag, Token.isBody]
  · simp [Token.Legible, emphasisTag, Token.isBody]
  · cases color <;> simp only [Color.tag?, Option.some.injEq, reduceCtorEq] at hcolor <;>
      subst hcolor <;> simp [Token.Legible, Token.isBody]

theorem TagStack.legible_closing {name : String} (h : Writable name) :
    (Token.closing name).Legible := (legible_opening h).2.2

theorem Run.legible_text {run : Run} (h : ∀ word ∈ run.words, '<' ∉ word.toList) :
    (Token.text run.text).Legible := by
  have hwords : ∀ word ∈ run.words, ∀ c ∈ word.toList, Token.isText c = true := by
    intro word hword c hc
    have hne : c ≠ '<' := fun heq => h word hword (heq ▸ hc)
    simpa [Token.isText] using hne
  intro c hc
  unfold Run.text at hc
  split at hc
  · rw [String.toList_join, List.mem_flatMap] at hc
    obtain ⟨word, hword, hc⟩ := hc
    exact hwords word hword c hc
  · rcases Words.mem_intercalate hc with rfl | ⟨word, hword, hc⟩
    · decide
    · exact hwords word hword c hc

namespace Writer

theorem legible_edits {writer : Writer} (h : ∀ name ∈ writer.openTags, TagStack.Writable name)
    (run : Run) : ∀ token ∈ (writer.edits run).map TagEdit.token, token.Legible := by
  intro token htoken
  obtain ⟨edit, hedit, rfl⟩ := List.mem_map.1 htoken
  cases edit with
  | opens name => exact TagStack.legible_opening (writable_of_mem_edits hedit)
  | closes name =>
      unfold edits at hedit
      split at hedit
      · simp at hedit
      · exact TagStack.legible_closing (TagStack.writable_of_closes_mem h hedit)

theorem legible_writeRuns {writer : Writer}
    (h : ∀ name ∈ writer.openTags, TagStack.Writable name) {document : Document}
    (hwords : ∀ run ∈ document, ∀ word ∈ run.words, '<' ∉ word.toList) :
    ∀ token ∈ writer.writeRuns document, token.Legible := by
  induction document generalizing writer with
  | nil => simp [writeRuns]
  | cons run rest ih =>
      intro token htoken
      rcases List.mem_append.1 htoken with htoken | htoken
      · exact legible_edits h run token htoken
      rcases List.mem_cons.1 htoken with rfl | htoken
      · exact Run.legible_text (hwords run List.mem_cons_self)
      · exact ih (writable_advance h run)
          (fun other hother => hwords other (List.mem_cons_of_mem _ hother)) token htoken

theorem legible_write {writer : Writer} (h : ∀ name ∈ writer.openTags, TagStack.Writable name)
    {document : Document} (hwords : ∀ run ∈ document, ∀ word ∈ run.words, '<' ∉ word.toList) :
    ∀ token ∈ writer.write document, token.Legible := by
  intro token htoken
  have happend := write_append writer document []
  rw [List.append_nil] at happend
  rw [happend, List.mem_append] at htoken
  rcases htoken with htoken | htoken
  · exact legible_writeRuns h hwords token htoken
  · obtain ⟨name, hname, rfl⟩ := List.mem_map.1 htoken
    exact TagStack.legible_closing (writable_advanceAll h document name hname)

end Writer

namespace Document

/-- The markup that stands before the text of a run. -/
def markupBefore (before : Document) (run : Run) : String :=
  Token.renderAll (Writer.start.writeRuns before ++
    ((Writer.start.advanceAll before).edits run).map TagEdit.token)

/-- The tags that are open at the text of a run. -/
def openAt (before : Document) (run : Run) : TagStack :=
  ((Writer.start.advanceAll before).advance run).openTags

theorem tokenize_markup {document : Document}
    (h : ∀ run ∈ document, ∀ word ∈ run.words, '<' ∉ word.toList) :
    tokenize document.markup = ⟨Token.fuse document.tokens, none⟩ :=
  Token.tokenize_renderAll (Writer.legible_write Writer.writable_start h)

theorem tokens_append_cons (before : Document) (run : Run) (after : Document) :
    tokens (before ++ run :: after) =
      (Writer.start.writeRuns before ++
        ((Writer.start.advanceAll before).edits run).map TagEdit.token) ++
        .text run.text :: ((Writer.start.advanceAll before).advance run).write after := by
  rw [tokens, Writer.write_append, Writer.write, List.append_assoc]

theorem advanceAll_before (before : Document) (run : Run) :
    Scope.outermost.advanceAll (Writer.start.writeRuns before ++
        ((Writer.start.advanceAll before).edits run).map TagEdit.token) =
      .ok (before.openAt run).scope := by
  rw [← TagStack.scope_nil]
  exact (Scope.advanceAll_append (Writer.scope_writeRuns Writer.start before) _).trans
    (Writer.scope_edits _ run)

theorem denote_openAt (before : Document) (run : Run) :
    (before.openAt run).denote = .ok (before.openAt run).shown ∧
      (before.openAt run).tails.tail.map TagStack.denote =
        (before.openAt run).scope.saved.map .ok := by
  have hwritable := Writer.writable_advance
    (Writer.writable_advanceAll Writer.writable_start before) run
  refine ⟨TagStack.denote_eq hwritable, ?_⟩
  rw [TagStack.scope, List.map_map]
  apply List.map_congr_left
  intro outer houter
  have hsuffix : outer <:+ before.openAt run := (List.mem_tails _ _).1 (List.mem_of_mem_tail houter)
  exact TagStack.denote_eq fun name hname => hwritable name (hsuffix.subset hname)

/-- The markup of a document is read to its end, and a reader that has come to the
text of a run stands where the open tags say. The last part says so of the text
token in which the text of the run is read, together with what it may have met. -/
theorem scope_at_run {document : Document}
    (h : ∀ run ∈ document, ∀ word ∈ run.words, '<' ∉ word.toList) :
    (tokenize document.markup).truncation = none ∧
    (∃ runs, Document.ofTokens (tokenize document.markup).tokens = .ok runs) ∧
    ∀ (before : Document) (run : Run) (after : Document), document = before ++ run :: after →
      ∃ scope : Scope,
        (∃ rest, document.markup = before.markupBefore run ++ run.text ++ rest) ∧
        (tokenize (before.markupBefore run)).truncation = none ∧
        Scope.outermost.advanceAll (tokenize (before.markupBefore run)).tokens = .ok scope ∧
        (before.openAt run).denote = .ok scope.style ∧
        (before.openAt run).tails.tail.map TagStack.denote = scope.saved.map .ok ∧
        scope.style =
          { bold := decide (TagStack.boldTag ∈ before.openAt run)
            emphasis := decide ((before.openAt run).count TagStack.emphasisTag % 2 = 1)
            color := (before.openAt run).topColor } ∧
        (run.text ≠ "" → ∃ front left right back earlier later,
          (tokenize document.markup).tokens = front ++ .text (left ++ run.text ++ right) :: back ∧
          Token.renderAll front ++ left = before.markupBefore run ∧
          Scope.outermost.advanceAll front = .ok scope ∧
          Document.ofTokens (tokenize document.markup).tokens =
            .ok (earlier ++ Run.ofText scope.style (left ++ run.text ++ right) :: later)) := by
  have htokenize := tokenize_markup h
  have hwrite : Scope.outermost.advanceAll document.tokens = .ok .outermost :=
    Writer.scope_write Writer.start document
  rw [← Scope.advanceAll_fuse] at hwrite
  refine ⟨by rw [htokenize], by rw [htokenize]; exact Scope.exists_read_of_advanceAll hwrite, ?_⟩
  intro before run after hdocument
  have hscope := advanceAll_before before run
  have hlegible : ∀ token ∈ Writer.start.writeRuns before ++
      ((Writer.start.advanceAll before).edits run).map TagEdit.token, token.Legible := by
    intro token htoken
    rcases List.mem_append.1 htoken with htoken | htoken
    · exact Writer.legible_writeRuns Writer.writable_start
        (fun other hother => h other (by simp [hdocument, hother])) token htoken
    · exact Writer.legible_edits
        (Writer.writable_advanceAll Writer.writable_start before) run token htoken
  have hbefore : tokenize (before.markupBefore run) = ⟨_, none⟩ :=
    Token.tokenize_renderAll hlegible
  refine ⟨(before.openAt run).scope, ?_, by rw [hbefore], ?_, (denote_openAt before run).1,
    (denote_openAt before run).2, rfl, ?_⟩
  · refine ⟨Token.renderAll (((Writer.start.advanceAll before).advance run).write after), ?_⟩
    rw [hdocument, markup, tokens_append_cons, Token.renderAll_append, Token.renderAll_cons,
      ← String.append_assoc]
    rfl
  · rw [hbefore, Scope.advanceAll_fuse, hscope]
  · intro hne
    obtain ⟨front, left, right, back, hfuse, hrender, hfront⟩ :=
      Scope.fuse_append_text _ hne (((Writer.start.advanceAll before).advance run).write after)
    rw [← tokens_append_cons, ← hdocument] at hfuse
    have hreached := (hfront _).trans hscope
    rw [hfuse] at hwrite
    obtain ⟨earlier, later, hread⟩ :=
      Scope.read_text hreached (by simp [hne] : left ++ run.text ++ right ≠ "") hwrite
    rw [← hfuse] at hread
    exact ⟨front, left, right, back, earlier, later, by rw [htokenize, hfuse], hrender, hreached,
      by rw [htokenize]; exact hread⟩

/-- Runs that reading never leaves side by side: neighbours that are alike, one of them
empty, attributes that no tag is written for, and literal text in two pieces. -/
def untidyDocument : Document :=
  [⟨{ bold := true, emphasis := true, underline := 200 }, ["a"]⟩,
    ⟨{ bold := true, emphasis := true, underline := 200 }, []⟩,
    ⟨{ literal := true, size := 255, color := .red }, ["b ", "> c"]⟩]

theorem scope_at_run_untidyDocument :
    (∀ run ∈ untidyDocument, ∀ word ∈ run.words, '<' ∉ word.toList) ∧
      (tokenize untidyDocument.markup).truncation = none ∧
      ∃ before run scope, untidyDocument = before ++ [run] ∧
        Scope.outermost.advanceAll (tokenize (markupBefore before run)).tokens = .ok scope ∧
        (openAt before run).denote = .ok scope.style ∧
        scope.style = { emphasis := true, color := .red } := by
  have h : ∀ run ∈ untidyDocument, ∀ word ∈ run.words, '<' ∉ word.toList := by decide
  obtain ⟨htruncation, -, hruns⟩ := scope_at_run h
  obtain ⟨scope, -, -, hscope, hdenote, -, hstyle, -⟩ := hruns (untidyDocument.take 2)
    ⟨{ literal := true, size := 255, color := .red }, ["b ", "> c"]⟩ [] rfl
  exact ⟨h, htruncation, _, _, scope, rfl, hscope, hdenote, hstyle.trans (by decide)⟩

end Document

end StyledMarkup
