import StyledMarkup.Proofs.MeetingWords

/-!
# Documents that come back unchanged

A compact document of running text in bold, emphasis and color comes back as it
was exactly if the open tags stand for the style of each run when its text is
written. One direction follows the reader along. In the other a difference cannot
stay hidden by runs that grow together: every meeting of two texts costs a word,
so if all words are back, then each is in the style that was shown for its run.
-/
namespace StyledMarkup

/-- A style that tags of a writer can stand for. -/
def Style.IsTagged (style : Style) : Prop :=
  style = { bold := style.bold, emphasis := style.emphasis, color := style.color }

instance (style : Style) : Decidable style.IsTagged :=
  inferInstanceAs (Decidable (style = _))

namespace TagStack

theorem isTagged_shown (stack : TagStack) : stack.shown.IsTagged := rfl

theorem shown_eq_iff {stack : TagStack} {style : Style} (h : style.IsTagged) :
    stack.shown = style ↔
      (style.bold = true ↔ boldTag ∈ stack) ∧
        (style.emphasis = true ↔ stack.count emphasisTag % 2 = 1) ∧
        style.color = stack.topColor := by
  constructor
  · rintro rfl
    simp [shown]
  · rintro ⟨hbold, hemphasis, hcolor⟩
    rw [h]
    have hbold' : decide (boldTag ∈ stack) = style.bold := by
      rw [Bool.eq_iff_iff, decide_eq_true_iff, hbold]
    have hemphasis' : decide (stack.count emphasisTag % 2 = 1) = style.emphasis := by
      rw [Bool.eq_iff_iff, decide_eq_true_iff, hemphasis]
    simp [shown, hbold', hemphasis', hcolor]

end TagStack

/-- A run as a document holds it that can be written without loss of its style: in
bold, emphasis and color alone, and in words that can be written. -/
structure Run.IsTagged (run : Run) : Prop where
  style : run.style.IsTagged
  isWord : ∀ word ∈ run.words, IsWord word
  noTag : ∀ word ∈ run.words, '<' ∉ word.toList

instance (run : Run) : Decidable run.IsTagged :=
  decidable_of_iff (run.style.IsTagged ∧ (∀ word ∈ run.words, IsWord word) ∧
      ∀ word ∈ run.words, '<' ∉ word.toList)
    ⟨fun h => ⟨h.1, h.2.1, h.2.2⟩, fun h => ⟨h.style, h.isWord, h.noTag⟩⟩

theorem Run.IsTagged.running {run : Run} (h : run.IsTagged) : run.style.literal = false := by
  rw [h.style]

namespace Document

theorem IsCompact.isPlain {document : Document} (hcompact : document.IsCompact)
    (h : ∀ run ∈ document, run.IsTagged) : ∀ run ∈ document, run.IsPlain := by
  intro run hrun
  have hrunning := (h run hrun).running
  exact ⟨hrunning, hcompact.words_ne_nil hrun hrunning, (h run hrun).isWord, (h run hrun).noTag⟩

/-- Equal words in equal order leave no choice for the styles of the runs. -/
theorem eq_of_marks_shown (writer : Writer) {document : Document}
    (h : ∀ run ∈ document, run.words ≠ [])
    (hmarks : marks (writer.shown document) = marks document) :
    writer.shown document = document := by
  induction document generalizing writer with
  | nil => rfl
  | cons run rest ih =>
      obtain ⟨hfilled, hlater⟩ := List.forall_mem_cons.1 h
      rw [Writer.shown_cons, marks_cons, marks_cons] at hmarks
      obtain ⟨hrun, hrest⟩ := List.append_inj hmarks (by simp)
      obtain ⟨word, words, hwords⟩ := List.exists_cons_of_ne_nil hfilled
      have hstyle : (writer.advance run).openTags.shown = run.style := by
        dsimp only at hrun
        rw [hwords] at hrun
        exact congrArg Prod.fst (List.cons.inj hrun).1
      rw [Writer.shown_cons, ih _ hlater hrest, hstyle]

theorem reread_eq_self_iff_shown {document : Document} (hcompact : document.IsCompact)
    (h : ∀ run ∈ document, run.IsTagged) :
    document.reread = .ok document ↔ Writer.start.shown document = document := by
  have hplain := hcompact.isPlain h
  constructor
  · intro hreread
    rw [reread_eq hplain, Except.ok.injEq] at hreread
    have hfilled := Writer.seen_filled Writer.start hplain
    have hmarks : marks (Writer.start.seen document) = marks document := by
      rw [← marks_compact fun run hrun => (hfilled run hrun).1, hreread]
    have hwords : Writer.start.joinedWords document = document.allWords := by
      rw [← Writer.allWords_seen _ hplain, ← map_snd_marks, hmarks, map_snd_marks]
    have hshown := Writer.seen_of_meetings <|
      Writer.meetings_eq_zero_of_joinedWords (fun run hrun => (hplain run hrun).filled) hwords
    rw [hshown] at hmarks
    exact eq_of_marks_shown _ (fun run hrun => (hplain run hrun).filled) hmarks
  · intro hshown
    have hdistinct := hcompact.distinct
    rw [← hshown] at hdistinct
    rw [reread_eq_shown hplain hdistinct, hshown]

/-- A compact document of tagged runs comes back unchanged exactly if at every run
the open tags agree with its style. -/
theorem reread_eq_self_iff_openAt {document : Document} (hcompact : document.IsCompact)
    (h : ∀ run ∈ document, run.IsTagged) :
    document.reread = .ok document ↔
      ∀ (before : Document) (run : Run) (after : Document), document = before ++ run :: after →
        (run.style.bold = true ↔ TagStack.boldTag ∈ before.openAt run) ∧
        (run.style.emphasis = true ↔
          (before.openAt run).count TagStack.emphasisTag % 2 = 1) ∧
        run.style.color = (before.openAt run).topColor := by
  rw [reread_eq_self_iff_shown hcompact h, Writer.shown_eq_self_iff]
  have hrun : ∀ (before : Document) (run : Run) (after : Document),
      document = before ++ run :: after → run.style.IsTagged := by
    rintro before run after rfl
    exact (h run (by simp)).style
  constructor
  · intro hshown before run after heq
    exact (TagStack.shown_eq_iff (hrun before run after heq)).1 (hshown before run after heq)
  · intro hopen before run after heq
    exact (TagStack.shown_eq_iff (hrun before run after heq)).2 (hopen before run after heq)

/-- The document of `sample`. -/
def sampleDocument : Document :=
  [⟨{ bold := true }, ["bold"]⟩, ⟨{ bold := true, color := .red }, ["red", "and", "bold"]⟩,
    ⟨{ bold := true }, ["just", "bold"]⟩]

/-- Bold that begins in a color and goes on behind it. -/
def boldAcrossColor : Document :=
  [⟨{ color := .red }, ["a"]⟩, ⟨{ bold := true, color := .red }, ["b"]⟩,
    ⟨{ bold := true }, ["c"]⟩]

/-- The document of `sample` comes back, and so the open tags agree with the style at each of
its runs. The other one does not: its last run is bold, and no tag is open there. -/
theorem reread_sampleDocument_iff_openAt :
    sampleDocument.IsCompact ∧ (∀ run ∈ sampleDocument, run.IsTagged) ∧
      sampleDocument.markup = "<B>bold<r>red and bold</r>just bold</B>" ∧
      sampleDocument.reread = .ok sampleDocument ∧
      (∀ (before : Document) (run : Run) (after : Document),
        sampleDocument = before ++ run :: after →
          (run.style.bold = true ↔ TagStack.boldTag ∈ before.openAt run) ∧
          (run.style.emphasis = true ↔
            (before.openAt run).count TagStack.emphasisTag % 2 = 1) ∧
          run.style.color = (before.openAt run).topColor) ∧
      boldAcrossColor.IsCompact ∧ (∀ run ∈ boldAcrossColor, run.IsTagged) ∧
      boldAcrossColor.markup = "<r>a<B>b</B></r>c" ∧
      openAt (boldAcrossColor.take 2) ⟨{ bold := true }, ["c"]⟩ = [] ∧
      boldAcrossColor.reread ≠ .ok boldAcrossColor := by
  have hcompact : sampleDocument.IsCompact := by decide
  have htagged : ∀ run ∈ sampleDocument, run.IsTagged := by decide
  have hself : sampleDocument.reread = .ok sampleDocument := by decide +kernel
  have hcompact' : boldAcrossColor.IsCompact := by decide
  have htagged' : ∀ run ∈ boldAcrossColor, run.IsTagged := by decide
  have hclosed : openAt (boldAcrossColor.take 2) ⟨{ bold := true }, ["c"]⟩ = [] := by decide
  refine ⟨hcompact, htagged, by decide +kernel, hself,
    (reread_eq_self_iff_openAt hcompact htagged).1 hself, hcompact', htagged',
    by decide +kernel, hclosed, fun hother => ?_⟩
  have hopen := ((reread_eq_self_iff_openAt hcompact' htagged').1 hother
    (boldAcrossColor.take 2) ⟨{ bold := true }, ["c"]⟩ [] rfl).1.1 rfl
  rw [hclosed] at hopen
  cases hopen

end Document

end StyledMarkup
