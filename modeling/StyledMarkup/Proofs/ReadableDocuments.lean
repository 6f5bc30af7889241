import StyledMarkup.Proofs.ScopedStyles
import StyledMarkup.Proofs.SpelledStyles
import StyledMarkup.Proofs.VisibleText

/-!
# The documents that markup can say

A document that was read from markup is compact, has its literal text in one piece and all
other text in proper words, holds no `<`, and has no level beyond those that tags reach.
Nothing else is true of all of them: each document of this kind is read from some markup,
down to the emphasis that literal text does not show.

That markup is not the one that the writer makes, which has no tags for most attributes.
It puts each run into a tag of its own, which spells out the whole style of the run.
-/
namespace StyledMarkup

/-- A run as reading leaves it. -/
structure Run.IsReadable (run : Run) : Prop where
  literal : run.style.literal = true → ∃ written, written ≠ "" ∧ run.words = [written]
  running : run.style.literal = false → run.words ≠ [] ∧ ∀ word ∈ run.words, IsWord word
  noTag : ∀ word ∈ run.words, '<' ∉ word.toList
  inRange : run.style.InRange

/-- A document as reading leaves it. -/
structure Document.IsReadable (document : Document) : Prop where
  distinct : document.IsChain fun a b => a.style.alike b.style = false
  runs : ∀ run ∈ document, run.IsReadable

namespace Run

theorem IsReadable.isEmpty {run : Run} (h : run.IsReadable) : run.isEmpty = false := by
  cases hliteral : run.style.literal with
  | true =>
      obtain ⟨written, hne, hwords⟩ := h.literal hliteral
      simp [Run.isEmpty, hwords, hliteral, hne]
  | false =>
      rw [Bool.eq_false_iff, Ne, isEmpty_of_running hliteral]
      exact (h.running hliteral).1

theorem IsReadable.text_ne_empty {run : Run} (h : run.IsReadable) : run.text ≠ "" := by
  unfold text
  split
  · rename_i hliteral
    obtain ⟨written, hne, hwords⟩ := h.literal hliteral
    simpa [hwords] using hne
  · rename_i hliteral
    obtain ⟨hne, hwords⟩ := h.running (by simpa using hliteral)
    exact Words.intercalate_ne_empty hne hwords

/-- The text of the run is read as the run, if it is read in its style. -/
theorem IsReadable.ofText_text {run : Run} (h : run.IsReadable) :
    ofText run.style run.text = run := by
  obtain ⟨style, words⟩ := run
  cases hliteral : style.literal with
  | true =>
      obtain ⟨written, -, rfl⟩ := h.literal hliteral
      simp [ofText, text, hliteral]
  | false =>
      rw [text_of_running hliteral]
      exact ofText_intercalate hliteral (h.running hliteral).2

/-- The run in a tag of its own that says its whole style. -/
def spelledOut (run : Run) : List Token :=
  [.opening (TagContent.spell run.style.directives), .text run.text, .closing ""]

theorem IsReadable.legible_spelledOut {run : Run} (h : run.IsReadable) :
    ∀ token ∈ run.spelledOut, token.Legible := by
  intro token htoken
  rcases List.mem_cons.1 htoken with rfl | htoken
  · exact TagContent.legible_spell run.style.directives_ne_nil Style.ne_of_mem_directives
  rcases List.mem_cons.1 htoken with rfl | htoken
  · exact legible_text h.noTag
  · obtain rfl := List.mem_singleton.1 htoken
    simp [Token.Legible]

/-- The tag is closed behind the run, so each run begins outside all tags. -/
theorem IsReadable.read_spelledOut {run : Run} (h : run.IsReadable) (tokens : List Token) :
    Scope.outermost.read (run.spelledOut ++ tokens) =
      (Scope.outermost.read tokens).map (run :: ·) := by
  have hopen : Scope.outermost.advance (.opening (TagContent.spell run.style.directives)) =
      .ok ⟨run.style, [.initial]⟩ := by
    change (Style.initial.apply _).map _ = _
    rw [Style.apply_initial_spell h.inRange]
    rfl
  have hclose : Scope.advance ⟨run.style, [.initial]⟩ (.closing "") = .ok .outermost := rfl
  have hruns : Scope.runs ⟨run.style, [.initial]⟩ (.text run.text) = [run] := by
    simp [Scope.runs, h.text_ne_empty, h.ofText_text]
  rw [spelledOut, List.cons_append, List.cons_append, List.cons_append, List.nil_append,
    Scope.read_cons hopen, Scope.read_cons (Scope.advance_text _ _), Scope.read_cons hclose, hruns]
  cases Scope.outermost.read tokens <;> rfl

theorem fuse_spelledOut {run : Run} (h : run.text ≠ "") (tokens : List Token) :
    Token.fuse (run.spelledOut ++ tokens) = run.spelledOut ++ Token.fuse tokens := by
  simp [spelledOut, Token.attach, h]

end Run

namespace Document

/-- The runs one after the other, each in a tag of its own. -/
def spelledOut (document : Document) : List Token := document.flatMap Run.spelledOut

theorem fuse_spelledOut {document : Document} (h : ∀ run ∈ document, run.IsReadable) :
    Token.fuse document.spelledOut = document.spelledOut := by
  induction document with
  | nil => rfl
  | cons run rest ih =>
      obtain ⟨hrun, hrest⟩ := List.forall_mem_cons.1 h
      rw [spelledOut, List.flatMap_cons, Run.fuse_spelledOut hrun.text_ne_empty]
      exact congrArg (run.spelledOut ++ ·) (ih hrest)

theorem tokenize_spelledOut {document : Document} (h : ∀ run ∈ document, run.IsReadable) :
    tokenize (Token.renderAll document.spelledOut) = ⟨document.spelledOut, none⟩ := by
  have hlegible : ∀ token ∈ document.spelledOut, token.Legible := by
    intro token htoken
    obtain ⟨run, hrun, hmem⟩ := List.mem_flatMap.1 htoken
    exact (h run hrun).legible_spelledOut token hmem
  rw [Token.tokenize_renderAll hlegible, fuse_spelledOut h]

theorem ofTokens_spelledOut {document : Document} (h : ∀ run ∈ document, run.IsReadable) :
    ofTokens document.spelledOut = .ok document := by
  induction document with
  | nil => rfl
  | cons run rest ih =>
      obtain ⟨hrun, hrest⟩ := List.forall_mem_cons.1 h
      rw [ofTokens, spelledOut, List.flatMap_cons, hrun.read_spelledOut]
      change (ofTokens (spelledOut rest)).map _ = _
      rw [ih hrest]
      rfl

theorem IsReadable.isCompact {document : Document} (h : document.IsReadable) :
    document.IsCompact :=
  ⟨fun run hrun => (h.runs run hrun).isEmpty, h.distinct⟩

theorem IsReadable.readMarkup_spelledOut {document : Document} (h : document.IsReadable) :
    readMarkup (Token.renderAll document.spelledOut) = .ok (document, none) := by
  rw [readMarkup, tokenize_spelledOut h.runs, ofTokens_spelledOut h.runs]
  simp only [Except.map, compact_eq_self h.isCompact]

end Document

/-- No tags lead out of the range. -/
theorem Scope.inRange_advanceAll {tokens : List Token} {reached : Scope}
    (h : outermost.advanceAll tokens = .ok reached) : reached.style.InRange :=
  TagStack.denote_induction ⟨by decide, by decide⟩
    (fun _ _ _ hstyle happly => hstyle.apply happly) (TagStack.denote_passAll h)

/-- A run that was read and may still be empty. -/
structure Run.IsRead (run : Run) : Prop where
  whole : run.IsWhole
  isWord : run.style.literal = false → ∀ word ∈ run.words, IsWord word
  noTag : ∀ word ∈ run.words, '<' ∉ word.toList
  inRange : run.style.InRange

namespace Run

theorem IsRead.absorb {a b : Run} (ha : a.IsRead) (hb : b.IsRead)
    (h : a.style.alike b.style = true) : (a.absorb b).IsRead := by
  refine ⟨ha.whole.absorb b, fun hrunning => ?_, Document.noTag_absorb ha.noTag hb.noTag, ?_⟩
  · rw [absorb_style] at hrunning
    have hnext : b.style.literal = false := (Style.literal_of_alike h).symm.trans hrunning
    exact forall_mem_absorb hrunning (ha.isWord hrunning) (hb.isWord hnext)
  · rw [absorb_style]
    exact ha.inRange

theorem IsRead.isReadable {run : Run} (h : run.IsRead) (hfilled : run.isEmpty = false) :
    run.IsReadable := by
  refine ⟨fun hliteral => ?_, fun hrunning => ⟨fun hnil => ?_, h.isWord hrunning⟩, h.noTag, h.inRange⟩
  · obtain ⟨written, hwords⟩ := h.whole hliteral
    refine ⟨written, fun hempty => ?_, hwords⟩
    simp [Run.isEmpty, hwords, hliteral, hempty] at hfilled
  · rw [(isEmpty_of_running hrunning).2 hnil] at hfilled
    exact absurd hfilled (by simp)

end Run

namespace Document

theorem isRead_of_tokenize {markup : String} {runs : Document}
    (h : ofTokens (tokenize markup).tokens = .ok runs) : ∀ run ∈ runs, run.IsRead := by
  intro run hrun
  have hwhole := isWhole_of_ofTokens h run hrun
  have hnoTag := noTag_of_tokenize h run hrun
  obtain ⟨front, written, back, reached, -, hreached, rfl⟩ := Scope.exists_text_of_mem_read h hrun
  refine ⟨hwhole, fun hliteral word hword => ?_, hnoTag, Scope.inRange_advanceAll hreached⟩
  have hrunning : ¬ reached.style.literal = true := Bool.eq_false_iff.1 hliteral
  rw [Run.ofText, if_neg hrunning] at hword
  exact (Words.isWord_of_mem_split hword).1

theorem isReadable_of_readMarkup {markup : String} {document : Document}
    {truncation : Option Truncation} (h : readMarkup markup = .ok (document, truncation)) :
    document.IsReadable := by
  obtain ⟨runs, hread, rfl, -⟩ := readMarkup_eq_ok_iff.1 h
  have hcompact := isCompact_compact runs
  have hruns : ∀ run ∈ runs.compact, run.IsRead :=
    forall_mem_compact (fun a b halike ha hb => ha.absorb hb halike) (isRead_of_tokenize hread)
  exact ⟨hcompact.distinct, fun run hrun => (hruns run hrun).isReadable (hcompact.filled run hrun)⟩

/-- The documents that markup without a cut is read as are those in which neighbours differ,
literal text is in one piece, other text in proper words, no word holds a `<`, and no level
is beyond those of tags. -/
theorem exists_readMarkup_iff (document : Document) :
    (∃ markup, readMarkup markup = .ok (document, none)) ↔ document.IsReadable := by
  constructor
  · rintro ⟨markup, hread⟩
    exact isReadable_of_readMarkup hread
  · intro h
    exact ⟨_, h.readMarkup_spelledOut⟩

end Document

end StyledMarkup
