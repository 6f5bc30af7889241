import Mathlib.Data.List.Chain
import StyledMarkup.Proofs.Rereading
import StyledMarkup.Proofs.WrittenAttributes

/-!
# Words that meet

Nothing but tags stands between the texts of two runs. Where the transition from the
one to the other writes a tag, the words on both sides are still two when the markup
is read. Where it writes none, the last word of the one run and the first word of the
other are read as one word, and over runs of a single word this goes on. Nothing else
becomes of the words, so every such meeting costs exactly one word.
-/
namespace StyledMarkup

namespace Words

@[simp] theorem weld_nil (words : List String) : weld words [] = words := by
  induction words with
  | nil => rfl
  | cons word rest ih =>
      cases rest with
      | nil => rfl
      | cons next rest => rw [weld, ih]

/-- Only the first word of what follows is touched. -/
theorem weld_append (a : List String) {b : List String} (hb : b ≠ []) (c : List String) :
    weld a (b ++ c) = weld a b ++ c := by
  induction a with
  | nil => rfl
  | cons word rest ih =>
      cases rest with
      | nil =>
          obtain ⟨other, others, rfl⟩ := List.exists_cons_of_ne_nil hb
          rfl
      | cons next rest => rw [weld, ih, weld, List.cons_append]

end Words

namespace Document

@[simp] theorem allWords_cons (run : Run) (rest : Document) :
    allWords (run :: rest) = run.words ++ rest.allWords := rfl

theorem map_snd_marks (document : Document) :
    document.marks.map Prod.snd = document.allWords := by
  induction document with
  | nil => rfl
  | cons run rest ih => simp [ih, Function.comp_def]

/-- Compaction of running text leaves the list of words as it is. -/
theorem allWords_compact {document : Document}
    (h : ∀ run ∈ document, run.style.literal = false) :
    document.compact.allWords = document.allWords := by
  rw [← map_snd_marks, marks_compact h, map_snd_marks]

theorem allWords_lead (run : Run) (runsOn : Bool) {document : Document}
    (h : ∀ other ∈ document, other.words ≠ []) :
    (run.lead runsOn document).allWords =
      if runsOn then Words.weld run.words document.allWords
      else run.words ++ document.allWords := by
  cases runsOn with
  | false => rfl
  | true =>
      cases document with
      | nil => simp [Run.lead, allWords]
      | cons first rest =>
          have hfirst := h first List.mem_cons_self
          rw [if_pos rfl, allWords_cons, Words.weld_append _ hfirst]
          rfl

end Document

namespace Writer

/-- The words of a document in which those of neighbouring runs are one where no tag comes
in between. -/
def joinedWords (writer : Writer) : Document → List String
  | [] => []
  | run :: rest =>
      let next := writer.advance run
      if next.runsOn rest then Words.weld run.words (next.joinedWords rest)
      else run.words ++ next.joinedWords rest

/-- How many neighbours of the document meet. -/
def meetings (writer : Writer) : Document → Nat
  | [] => 0
  | run :: rest =>
      let next := writer.advance run
      (if next.runsOn rest then 1 else 0) + next.meetings rest

theorem allWords_seen (writer : Writer) {document : Document}
    (h : ∀ run ∈ document, run.IsPlain) :
    (writer.seen document).allWords = writer.joinedWords document := by
  induction document generalizing writer with
  | nil => rfl
  | cons run rest ih =>
      obtain ⟨-, hrest⟩ := List.forall_mem_cons.1 h
      have hfilled := fun other hother => (seen_filled (writer.advance run) hrest other hother).2
      rw [seen, Document.allWords_lead _ _ hfilled, ih _ hrest, joinedWords]

theorem joinedWords_ne_nil (writer : Writer) {run : Run} (h : run.words ≠ [])
    (rest : Document) : writer.joinedWords (run :: rest) ≠ [] := by
  rw [joinedWords]
  split
  · exact Words.weld_ne_nil h _
  · simp [h]

/-- Every meeting costs one word: two words become one, and both sides have a word. -/
theorem length_joinedWords (writer : Writer) {document : Document}
    (h : ∀ run ∈ document, run.words ≠ []) :
    (writer.joinedWords document).length + writer.meetings document =
      document.allWords.length := by
  induction document generalizing writer with
  | nil => rfl
  | cons run rest ih =>
      obtain ⟨hrun, hrest⟩ := List.forall_mem_cons.1 h
      have hlater := ih (writer.advance run) hrest
      rw [joinedWords, meetings, Document.allWords_cons, List.length_append]
      split
      · rename_i hruns
        obtain ⟨other, others, rfl, -⟩ := exists_of_runsOn hruns
        have hne := joinedWords_ne_nil (writer.advance run) (hrest other List.mem_cons_self) others
        have hlength := Words.length_weld hrun hne
        omega
      · rw [List.length_append]
        omega

theorem runsOn_of_meetings {writer : Writer} {run : Run} {rest : Document}
    (h : writer.meetings (run :: rest) = 0) :
    (writer.advance run).runsOn rest = false ∧ (writer.advance run).meetings rest = 0 := by
  rw [meetings, Nat.add_eq_zero_iff] at h
  exact ⟨by simpa using h.1, h.2⟩

theorem joinedWords_of_meetings {writer : Writer} {document : Document}
    (h : writer.meetings document = 0) : writer.joinedWords document = document.allWords := by
  induction document generalizing writer with
  | nil => rfl
  | cons run rest ih =>
      obtain ⟨hruns, hrest⟩ := runsOn_of_meetings h
      rw [joinedWords, hruns, if_neg (by simp), ih hrest, Document.allWords_cons]

/-- If nothing meets, then every run comes back by itself. -/
theorem seen_of_meetings {writer : Writer} {document : Document}
    (h : writer.meetings document = 0) : writer.seen document = writer.shown document := by
  induction document generalizing writer with
  | nil => rfl
  | cons run rest ih =>
      obtain ⟨hruns, hrest⟩ := runsOn_of_meetings h
      rw [seen, hruns, Run.lead_false, ih hrest, shown_cons]

/-- If there are as many words as before, then none have met. -/
theorem meetings_eq_zero_of_joinedWords {writer : Writer} {document : Document}
    (h : ∀ run ∈ document, run.words ≠ [])
    (heq : writer.joinedWords document = document.allWords) : writer.meetings document = 0 := by
  have hlength := writer.length_joinedWords h
  rw [heq] at hlength
  omega

/-- Nothing meets exactly if a tag is written at every boundary. -/
theorem meetings_eq_zero_iff (writer : Writer) (document : Document) :
    writer.meetings document = 0 ↔
      ∀ (before : Document) (previous run : Run) (after : Document),
        document = before ++ previous :: run :: after →
          ((writer.advanceAll before).advance previous).edits run ≠ [] := by
  induction document generalizing writer with
  | nil => simp [meetings]
  | cons first rest ih =>
      constructor
      · intro h before previous run after heq
        obtain ⟨hruns, hrest⟩ := runsOn_of_meetings h
        cases before with
        | nil =>
            obtain ⟨rfl, rfl⟩ := List.cons.inj heq
            simpa [runsOn] using hruns
        | cons other before =>
            obtain ⟨rfl, rfl⟩ := List.cons.inj heq
            exact (ih _).1 hrest before previous run after rfl
      · intro h
        have hruns : (writer.advance first).runsOn rest = false := by
          cases rest with
          | nil => rfl
          | cons run after => simpa [runsOn] using h [] first run after rfl
        have hrest : (writer.advance first).meetings rest = 0 := by
          refine (ih _).2 fun before previous run after heq => ?_
          exact h (first :: before) previous run after (by rw [heq]; rfl)
        rw [meetings, hruns, hrest]
        rfl

end Writer

namespace Document

/-- Between neighbours in a compact document the writer always goes through the transition. -/
theorem IsCompact.edits_eq {before : Document} {previous run : Run} {after : Document}
    (h : IsCompact (before ++ previous :: run :: after)) :
    ((Writer.start.advanceAll before).advance previous).edits run =
      TagStack.edits previous.style run.style (before.openAt previous) := by
  have hdistinct : previous.style.alike run.style = false :=
    List.isChain_iff_forall_rel_of_append_cons_cons.1 h.distinct rfl
  exact Writer.edits_of_distinct hdistinct

/-- A compact document of running text is read back with the words of neighbouring runs
joined where the transition writes no tag, and with all other words as they were. The list
of words is the same exactly if every transition behind the first run writes a tag. -/
theorem allWords_reread {document : Document} (hcompact : document.IsCompact)
    (hrunning : ∀ run ∈ document, run.style.literal = false)
    (hwords : ∀ run ∈ document, ∀ word ∈ run.words, IsWord word ∧ '<' ∉ word.toList) :
    ∃ result, document.reread = .ok result ∧
      result.allWords = Writer.start.joinedWords document ∧
      (result.allWords = document.allWords ↔
        ∀ (before : Document) (previous run : Run) (after : Document),
          document = before ++ previous :: run :: after →
            TagStack.edits previous.style run.style (before.openAt previous) ≠ []) := by
  have hfilled : ∀ run ∈ document, run.words ≠ [] := fun run hrun =>
    hcompact.words_ne_nil hrun (hrunning run hrun)
  have hplain : ∀ run ∈ document, run.IsPlain := fun run hrun =>
    ⟨hrunning run hrun, hfilled run hrun, fun word hword => (hwords run hrun word hword).1,
      fun word hword => (hwords run hrun word hword).2⟩
  have hseen := Writer.seen_filled Writer.start hplain
  have hjoined : (Writer.start.seen document).compact.allWords =
      Writer.start.joinedWords document := by
    rw [allWords_compact fun run hrun => (hseen run hrun).1, Writer.allWords_seen _ hplain]
  refine ⟨_, reread_eq hplain, hjoined, ?_⟩
  rw [hjoined]
  constructor
  · rintro heq before previous run after rfl
    have hmeetings := Writer.meetings_eq_zero_of_joinedWords hfilled heq
    rw [← hcompact.edits_eq]
    exact (Writer.meetings_eq_zero_iff _ _).1 hmeetings before previous run after rfl
  · intro h
    refine Writer.joinedWords_of_meetings ((Writer.meetings_eq_zero_iff _ _).2 ?_)
    rintro before previous run after rfl
    rw [hcompact.edits_eq]
    exact h before previous run after rfl

/-- Three runs that no tag tells apart, the middle one a single word, before one that a
tag sets off. -/
def meetingDocument : Document :=
  [⟨{ italic := true }, ["a", "b"]⟩, ⟨{}, ["c"]⟩, ⟨{ underline := 7 }, ["d", "e"]⟩,
    ⟨{ bold := true }, ["f"]⟩]

theorem allWords_reread_meetingDocument :
    meetingDocument.IsCompact ∧ (∀ run ∈ meetingDocument, run.style.literal = false) ∧
      (∀ run ∈ meetingDocument, ∀ word ∈ run.words, IsWord word ∧ '<' ∉ word.toList) ∧
      ∃ result, meetingDocument.reread = .ok result ∧
        result.allWords = ["a", "bcd", "e", "f"] ∧ result.allWords ≠ meetingDocument.allWords := by
  have hcompact : meetingDocument.IsCompact := by decide
  have hrunning : ∀ run ∈ meetingDocument, run.style.literal = false := by decide
  have hwords : ∀ run ∈ meetingDocument, ∀ word ∈ run.words, IsWord word ∧ '<' ∉ word.toList := by
    decide
  have hjoined : Writer.start.joinedWords meetingDocument = ["a", "bcd", "e", "f"] := by decide
  obtain ⟨result, hreread, hresult, -⟩ := allWords_reread hcompact hrunning hwords
  rw [hjoined] at hresult
  exact ⟨hcompact, hrunning, hwords, result, hreread, hresult, by rw [hresult]; decide⟩

end Document

end StyledMarkup
