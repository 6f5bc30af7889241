import StyledMarkup.Proofs.LockStep
import StyledMarkup.Proofs.NormalForm

/-!
# What is read back from a document

A document of running text is written and read again. Each run comes back with
its words and the style of the tags that were open at it. Where no tag was written
between two runs their texts meet, and so do the last word of the one and the
first word of the other.

If the styles that are read back tell all neighbours apart, then no two texts have
met, and compaction has nothing to do either.
-/
namespace StyledMarkup

namespace Token

theorem fuse_edits (edits : List TagEdit) (tokens : List Token) :
    fuse (edits.map TagEdit.token ++ tokens) = edits.map TagEdit.token ++ fuse tokens := by
  induction edits with
  | nil => rfl
  | cons edit edits ih =>
      rw [List.map_cons, List.cons_append, fuse_cons, ih]
      cases edit <;> rfl

end Token

namespace Scope

/-- Tags add no runs. -/
theorem read_edits {scope next : Scope} {edits : List TagEdit}
    (h : scope.advanceAll (edits.map TagEdit.token) = .ok next) (tokens : List Token) :
    scope.read (edits.map TagEdit.token ++ tokens) = next.read tokens := by
  induction edits generalizing scope with
  | nil =>
      cases h
      rfl
  | cons edit edits ih =>
      rw [List.map_cons] at h ⊢
      have hruns : scope.runs edit.token = [] := by cases edit <;> rfl
      obtain ⟨middle, hnext, hrest⟩ := exists_of_advanceAll_cons h
      rw [List.cons_append, read_cons hnext, ih hrest, hruns]
      cases next.read tokens <;> rfl

end Scope

/-- A run of running text, in words that can be written. -/
structure Run.IsPlain (run : Run) : Prop where
  running : run.style.literal = false
  filled : run.words ≠ []
  isWord : ∀ word ∈ run.words, IsWord word
  noTag : ∀ word ∈ run.words, '<' ∉ word.toList

instance (run : Run) : Decidable run.IsPlain :=
  decidable_of_iff (run.style.literal = false ∧ run.words ≠ [] ∧ (∀ word ∈ run.words, IsWord word) ∧
      ∀ word ∈ run.words, '<' ∉ word.toList)
    ⟨fun h => ⟨h.1, h.2.1, h.2.2.1, h.2.2.2⟩, fun h => ⟨h.running, h.filled, h.isWord, h.noTag⟩⟩

namespace Run

theorem IsPlain.text_eq {run : Run} (h : run.IsPlain) : run.text = " ".intercalate run.words :=
  text_of_running h.running run.words

theorem IsPlain.isEmpty {run : Run} (h : run.IsPlain) : run.isEmpty = false := by
  rw [Bool.eq_false_iff, Ne, isEmpty_of_running h.running]
  exact h.filled

/-- A run before others, into whose text the first of them may run on. -/
def lead (run : Run) (runsOn : Bool) (document : Document) : Document :=
  match runsOn, document with
  | true, first :: rest => { run with words := Words.weld run.words first.words } :: rest
  | _, rest => run :: rest

@[simp] theorem lead_false (run : Run) (document : Document) :
    run.lead false document = run :: document := rfl

theorem lead_lead (style : Style) (a : List String) {b : List String} (hb : b ≠ [])
    (runsOn : Bool) (document : Document) :
    lead ⟨style, a⟩ true (lead ⟨style, b⟩ runsOn document) =
      lead ⟨style, Words.weld a b⟩ runsOn document := by
  cases runsOn with
  | false => rfl
  | true =>
      cases document with
      | nil => rfl
      | cons first rest => simp [lead, Words.weld_assoc a hb]

end Run

namespace Writer

/-- Whether the text before the document goes on in it: no tag comes in between. -/
def runsOn (writer : Writer) : Document → Bool
  | [] => false
  | run :: _ => (writer.edits run).isEmpty

/-- What is read back behind this writer, before it is made compact. -/
def seen (writer : Writer) : Document → Document
  | [] => []
  | run :: rest =>
      Run.lead ⟨(writer.advance run).openTags.shown, run.words⟩
        ((writer.advance run).runsOn rest) ((writer.advance run).seen rest)

/-- The document with every run in the style of the tags that are open at it. -/
def shown (writer : Writer) : Document → Document
  | [] => []
  | run :: rest =>
      ⟨(writer.advance run).openTags.shown, run.words⟩ :: (writer.advance run).shown rest

@[simp] theorem shown_nil (writer : Writer) : writer.shown [] = [] := rfl

@[simp] theorem shown_cons (writer : Writer) (run : Run) (rest : Document) :
    writer.shown (run :: rest) =
      ⟨(writer.advance run).openTags.shown, run.words⟩ :: (writer.advance run).shown rest := rfl

theorem openTags_of_edits_nil {writer : Writer} {run : Run} (h : writer.edits run = []) :
    (writer.advance run).openTags = writer.openTags := by
  simp [advance, h]

theorem read_closing (scope : Scope) (stack : TagStack) :
    scope.read (stack.map Token.closing) = .ok [] := by
  induction stack generalizing scope with
  | nil => rfl
  | cons name rest ih =>
      have hadvance : scope.advance (.closing name) = .ok (scope.leave?.getD scope) := rfl
      rw [List.map_cons, Scope.read_cons hadvance, ih]
      rfl

theorem fuse_closing (stack : TagStack) :
    Token.fuse (stack.map Token.closing) = stack.map Token.closing := by
  induction stack with
  | nil => rfl
  | cons name rest ih => rw [List.map_cons, Token.fuse_cons, ih, Token.attach_closing]

theorem read_words (stack : TagStack) {words : List String} (hne : words ≠ [])
    (hwords : ∀ word ∈ words, IsWord word) (tokens : List Token) :
    stack.scope.read (.text (" ".intercalate words) :: tokens) =
      (stack.scope.read tokens).map (⟨stack.shown, words⟩ :: ·) := by
  have htext := Words.intercalate_ne_empty hne hwords
  have hrun : Run.ofText stack.scope.style (" ".intercalate words) = ⟨stack.shown, words⟩ :=
    Run.ofText_intercalate rfl hwords
  rw [Scope.read_cons (Scope.advance_text _ _)]
  simp [Scope.runs, htext, hrun]

/-- Words that stand before a document are read with it: as a run of their own if a
tag follows, else as the beginning of its first run. -/
theorem read_attach (writer : Writer) {words : List String} (hne : words ≠ [])
    (hwords : ∀ word ∈ words, IsWord word) {document : Document}
    (h : ∀ run ∈ document, run.IsPlain) :
    writer.openTags.scope.read
        ((Token.text (" ".intercalate words)).attach (Token.fuse (writer.write document))) =
      .ok (Run.lead ⟨writer.openTags.shown, words⟩ (writer.runsOn document)
        (writer.seen document)) := by
  induction document generalizing writer words with
  | nil =>
      have htext := Words.intercalate_ne_empty hne hwords
      have hattach : (Token.text (" ".intercalate words)).attach
          (writer.openTags.map Token.closing) =
            .text (" ".intercalate words) :: writer.openTags.map Token.closing := by
        cases writer.openTags <;> simp [Token.attach, htext]
      rw [write, fuse_closing, hattach, read_words _ hne hwords, read_closing]
      rfl
  | cons run rest ih =>
      obtain ⟨hplain, hrest⟩ := List.forall_mem_cons.1 h
      rw [write, Token.fuse_edits, Token.fuse_cons, hplain.text_eq]
      cases hedits : writer.edits run with
      | nil =>
          have htags := openTags_of_edits_nil hedits
          have hnext := ih (writer.advance run) (Words.weld_ne_nil hne run.words)
            (Words.isWord_weld hwords hplain.isWord) hrest
          rw [List.map_nil, List.nil_append, Token.attach_text_text,
            Words.intercalate_weld hne hplain.filled, ← htags, hnext, seen, runsOn, hedits]
          exact congrArg Except.ok (Run.lead_lead _ words hplain.filled _ _).symm
      | cons edit edits =>
          have htext := Words.intercalate_ne_empty hne hwords
          have hnext := ih (writer.advance run) hplain.filled hplain.isWord hrest
          have hadvance := scope_edits writer run
          rw [hedits] at hadvance
          have hattach (tokens : List Token) : (Token.text (" ".intercalate words)).attach
              ((edit :: edits).map TagEdit.token ++ tokens) =
                .text (" ".intercalate words) ::
                  ((edit :: edits).map TagEdit.token ++ tokens) := by
            cases edit <;> simp [Token.attach, TagEdit.token, htext]
          rw [hattach, read_words _ hne hwords, Scope.read_edits hadvance, hnext, runsOn, hedits]
          rfl

theorem read_write (writer : Writer) {document : Document} (h : ∀ run ∈ document, run.IsPlain) :
    writer.openTags.scope.read (Token.fuse (writer.write document)) =
      .ok (writer.seen document) := by
  cases document with
  | nil => rw [write, fuse_closing, read_closing]; rfl
  | cons run rest =>
      obtain ⟨hplain, hrest⟩ := List.forall_mem_cons.1 h
      rw [write, Token.fuse_edits, Scope.read_edits (scope_edits writer run), Token.fuse_cons,
        hplain.text_eq]
      exact read_attach _ hplain.filled hplain.isWord hrest

/-- Nothing that is read back is literal or empty. -/
theorem seen_filled (writer : Writer) {document : Document}
    (h : ∀ run ∈ document, run.IsPlain) :
    ∀ run ∈ writer.seen document, run.style.literal = false ∧ run.words ≠ [] := by
  induction document generalizing writer with
  | nil => simp [seen]
  | cons run rest ih =>
      obtain ⟨hrun, hlater⟩ := List.forall_mem_cons.1 h
      have hrest := ih (writer.advance run) hlater
      rw [seen]
      generalize (writer.advance run).seen rest = document at hrest ⊢
      unfold Run.lead
      split
      · exact List.forall_mem_cons.2 ⟨⟨rfl, Words.weld_ne_nil hrun.filled _⟩,
          (List.forall_mem_cons.1 hrest).2⟩
      · exact List.forall_mem_cons.2 ⟨⟨rfl, hrun.filled⟩, hrest⟩

theorem exists_of_runsOn {writer : Writer} {document : Document}
    (h : writer.runsOn document = true) :
    ∃ run rest, document = run :: rest ∧ writer.edits run = [] := by
  cases document with
  | nil => simp [runsOn] at h
  | cons run rest => exact ⟨run, rest, rfl, by simpa [runsOn] using h⟩

/-- If the styles that are shown tell all neighbours apart, then no texts have met. -/
theorem seen_eq_shown_of_distinct {writer : Writer} {document : Document}
    (h : (writer.shown document).IsChain fun a b => a.style.alike b.style = false) :
    writer.seen document = writer.shown document := by
  induction document generalizing writer with
  | nil => rfl
  | cons run rest ih =>
      rw [shown_cons] at h
      have hrest := ih h.of_cons
      cases hruns : (writer.advance run).runsOn rest with
      | false => rw [seen, hruns, Run.lead_false, hrest, shown_cons]
      | true =>
          obtain ⟨first, others, rfl, hedits⟩ := exists_of_runsOn hruns
          have hdistinct := h.rel
          rw [openTags_of_edits_nil hedits, Style.alike_refl] at hdistinct
          exact absurd hdistinct (by simp)

theorem shown_eq_self_iff (writer : Writer) (document : Document) :
    writer.shown document = document ↔
      ∀ (before : Document) (run : Run) (after : Document), document = before ++ run :: after →
        ((writer.advanceAll before).advance run).openTags.shown = run.style := by
  induction document generalizing writer with
  | nil => simp
  | cons run rest ih =>
      rw [shown_cons, List.cons.injEq, ih]
      constructor
      · rintro ⟨hrun, hrest⟩ before other after heq
        cases before with
        | nil =>
            obtain ⟨rfl, rfl⟩ := List.cons.inj heq
            exact congrArg Run.style hrun
        | cons first before =>
            obtain ⟨rfl, rfl⟩ := List.cons.inj heq
            exact hrest before other after rfl
      · intro h
        refine ⟨?_, fun before other after heq => ?_⟩
        · have hrun := h [] run rest rfl
          rw [advanceAll_nil] at hrun
          rw [hrun]
        · exact h (run :: before) other after (by rw [heq]; rfl)

end Writer

namespace Document

/-- What is read from the markup of the document, made compact. -/
def reread (document : Document) : Except UnknownTag Document :=
  (ofTokens (tokenize document.markup).tokens).map compact

theorem reread_eq {document : Document} (h : ∀ run ∈ document, run.IsPlain) :
    document.reread = .ok (Writer.start.seen document).compact := by
  rw [reread, tokenize_markup fun run hrun => (h run hrun).noTag]
  have hread := Writer.read_write Writer.start h
  exact congrArg (Except.map compact) hread

theorem filled_shown (writer : Writer) {document : Document}
    (h : ∀ run ∈ document, run.IsPlain) :
    ∀ run ∈ writer.shown document, run.isEmpty = false := by
  induction document generalizing writer with
  | nil => simp
  | cons run rest ih =>
      obtain ⟨hrun, hrest⟩ := List.forall_mem_cons.1 h
      refine List.forall_mem_cons.2 ⟨?_, ih _ hrest⟩
      rw [Bool.eq_false_iff, Ne, Run.isEmpty_of_running rfl]
      exact hrun.filled

/-- A document whose runs are still told apart when it is read comes back run by run. -/
theorem reread_eq_shown {document : Document} (h : ∀ run ∈ document, run.IsPlain)
    (hdistinct : (Writer.start.shown document).IsChain fun a b => a.style.alike b.style = false) :
    document.reread = .ok (Writer.start.shown document) := by
  rw [reread_eq h, Writer.seen_eq_shown_of_distinct hdistinct,
    compact_eq_self ⟨filled_shown Writer.start h, hdistinct⟩]

end Document

end StyledMarkup
