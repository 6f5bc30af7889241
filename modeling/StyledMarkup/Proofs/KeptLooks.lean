import StyledMarkup.Proofs.Frames
import StyledMarkup.Proofs.ReadDocuments

/-!
# Looks that are kept

A document keeps its looks if every run is shown with its own bold and its own
color; only emphasis may come out otherwise. What is read back from a document
always keeps its looks. Such a document, if it is compact, is read back run by run,
in the styles that are shown, and is then compact again.

To keep the looks is a matter of the styles in their order, and repeating a style
changes nothing. So it does not matter that runs are joined where styles are equal. This
is true of everything that is said of the levels at each run and of its look.
-/
namespace StyledMarkup

namespace Writer

/-- At every run the levels behind it and its look stand in the relation. -/
def Along (P : Levels → Look → Prop) (writer : Writer) : Document → Prop
  | [] => True
  | run :: rest =>
      P (writer.advance run).levels run.style.look ∧ Along P (writer.advance run) rest

theorem along_cons {P : Levels → Look → Prop} {writer : Writer} {run : Run} {rest : Document} :
    writer.Along P (run :: rest) ↔
      P (writer.advance run).levels run.style.look ∧ (writer.advance run).Along P rest := Iff.rfl

/-- Every run is shown with its own bold and its own color. -/
def Keeps (writer : Writer) (document : Document) : Prop := writer.Along Levels.Keeps document

theorem advance_congr (writer : Writer) {a b : Run} (h : a.style = b.style) :
    writer.advance a = writer.advance b := by
  simp [advance, edits, h]

theorem advance_eq_self {writer : Writer} {run : Run} (h : run.style = writer.style) :
    writer.advance run = writer := by
  simp [advance, edits, h, Style.alike_refl]

theorem advance_advance (writer : Writer) {a b : Run} (h : b.style = a.style) :
    (writer.advance a).advance b = writer.advance a :=
  advance_eq_self h

section
variable {P : Levels → Look → Prop}

/-- A run says no more than the run of the same style after it. -/
theorem along_cons_cons (writer : Writer) {a b : Run} (c : Run) (rest : Document)
    (hab : b.style = a.style) (hac : c.style = a.style) :
    writer.Along P (a :: b :: rest) ↔ writer.Along P (c :: rest) := by
  rw [along_cons, along_cons, along_cons, advance_advance writer hab, advance_congr writer hac,
    hab, hac, and_self_left]

theorem along_compactFrom (writer : Writer) {last : Run} {document : Document}
    (h : ∀ run ∈ last :: document, run.style.literal = false ∧ run.words ≠ []) :
    writer.Along P (Document.compactFrom last document) ↔ writer.Along P (last :: document) := by
  induction document generalizing writer last with
  | nil => rfl
  | cons run rest ih =>
      obtain ⟨⟨hlast, hwords⟩, hrest⟩ := List.forall_mem_cons.1 h
      obtain ⟨⟨hrun, hfilled⟩, hlater⟩ := List.forall_mem_cons.1 hrest
      unfold Document.compactFrom
      rw [if_neg (by simpa [Run.isEmpty_of_running hrun] using hfilled)]
      by_cases halike : last.style.alike run.style = true
      · have hstyle := (Style.alike_iff_eq hlast hrun).1 halike
        have habsorb := Run.absorb_style last run
        rw [if_pos halike, along_cons_cons writer (last.absorb run) rest hstyle.symm habsorb]
        refine ih writer (List.forall_mem_cons.2 ⟨?_, hlater⟩)
        rw [habsorb, Run.absorb_words hlast]
        exact ⟨hlast, by simp [hwords]⟩
      · rw [if_neg halike, along_cons, along_cons, ih _ hrest]

theorem along_compact (writer : Writer) {document : Document}
    (h : ∀ run ∈ document, run.style.literal = false ∧ run.words ≠ []) :
    writer.Along P document.compact ↔ writer.Along P document := by
  cases document with
  | nil => rfl
  | cons run rest =>
      obtain ⟨hrun, hfilled⟩ := h run List.mem_cons_self
      rw [Document.compact, if_neg (by simpa [Run.isEmpty_of_running hrun] using hfilled),
        along_compactFrom writer h]

end

theorem exists_seen_eq_cons (writer : Writer) (run : Run) (rest : Document) :
    ∃ first others, writer.seen (run :: rest) = first :: others ∧
      first.style = (writer.advance run).openTags.shown := by
  rw [seen]
  unfold Run.lead
  split
  · exact ⟨_, _, rfl, rfl⟩
  · exact ⟨_, _, rfl, rfl⟩

theorem along_seen {P : Levels → Look → Prop} (follower writer : Writer) (document : Document) :
    follower.Along P (writer.seen document) ↔ follower.Along P (writer.shown document) := by
  induction document generalizing follower writer with
  | nil => rfl
  | cons run rest ih =>
      rw [seen, shown_cons]
      cases hruns : (writer.advance run).runsOn rest with
      | false => rw [Run.lead_false, along_cons, along_cons, ih]
      | true =>
          obtain ⟨next, later, rfl, hedits⟩ := exists_of_runsOn hruns
          obtain ⟨first, others, hseen, hstyle⟩ :=
            exists_seen_eq_cons (writer.advance run) next later
          rw [openTags_of_edits_nil hedits] at hstyle
          have hnext := ih (follower.advance ⟨(writer.advance run).openTags.shown, run.words⟩)
            (writer.advance run)
          rw [hseen] at hnext ⊢
          rw [along_cons, ← hnext, ← along_cons, Run.lead]
          exact (along_cons_cons follower _ others hstyle rfl).symm

/-- A writer that follows what another has shown keeps the looks. -/
theorem keeps_shown {writer follower : Writer} (hwriter : writer.IsSound)
    (hframe : writer.levels.frame.Fits writer.look) (hfollower : follower.IsSound)
    (hlook : follower.look = writer.levels.top)
    (hsame : follower.levels.frame = writer.levels.frame) {document : Document}
    (h : ∀ run ∈ document, run.style.literal = false) :
    follower.Keeps (writer.shown document) := by
  induction document generalizing writer follower with
  | nil => trivial
  | cons run rest ih =>
      obtain ⟨hrun, hrest⟩ := List.forall_mem_cons.1 h
      have hwriter' := hwriter.advance hrun
      have hlevels := levels_advance hwriter hrun
      have hturn := Levels.frame_turn hwriter.fits run.style.look
      rw [← hlevels] at hturn
      have hframe' := hframe.turn run.style.look
      rw [← hturn] at hframe'
      rw [shown_cons, Keeps, along_cons]
      have hfollower' : (follower.advance
          ⟨(writer.advance run).openTags.shown, run.words⟩).IsSound := hfollower.advance rfl
      have hfollow : (follower.advance
          ⟨(writer.advance run).openTags.shown, run.words⟩).levels.frame =
            (writer.advance run).levels.frame := by
        rw [levels_advance hfollower rfl, Levels.frame_turn hfollower.fits, hsame, hlook, hturn]
        refine Frame.turn_shown hframe rfl rfl ?_ ?_
        · rw [← hturn]
          rfl
        · rw [← hturn]
          rfl
      refine ⟨⟨congrArg Frame.bold hfollow, congrArg Frame.color hfollow⟩, ?_⟩
      exact ih hwriter' hframe' hfollower' rfl hfollow hrest

theorem frame_fits_start : start.levels.frame.Fits start.look := by
  constructor <;> decide

/-- Two styles that differ are shown in two ways: in emphasis alone they differ by a
toggle. -/
theorem look_ne_of_keeps {writer : Writer} (h : writer.IsSound)
    (hkeeps : writer.levels.Keeps writer.look) {run : Run} (hrun : run.style.literal = false)
    (hkept : (writer.advance run).levels.Keeps run.style.look)
    (hne : run.style.look ≠ writer.look) :
    (writer.advance run).levels.top ≠ writer.levels.top := by
  intro heq
  have hbold : run.style.look.bold = writer.look.bold := by
    rw [← hkept.bold, ← hkeeps.bold, heq]
  have hcolor : run.style.look.color = writer.look.color := by
    rw [← hkept.color, ← hkeeps.color, heq]
  have hemphasis : writer.look.emphasis ≠ run.style.look.emphasis := by
    intro hsame
    exact hne (Look.ext hbold hsame.symm hcolor)
  have hturn : (writer.advance run).levels = writer.levels.toggle := by
    rw [levels_advance h hrun, Levels.turn, Levels.turnBold, if_pos hbold.symm,
      Levels.turnEmphasis, if_neg hemphasis, Levels.turnColor, if_pos hcolor.symm]
  have htoggled := congrArg Look.emphasis heq
  rw [hturn] at htoggled
  simp [Levels.toggle] at htoggled

/-- A compact document that keeps its looks is still told apart when it is shown. -/
theorem distinct_shown {writer : Writer} (h : writer.IsSound) {document : Document}
    (hdistinct : document.IsChain fun a b => a.style.alike b.style = false)
    (htagged : ∀ run ∈ document, run.style.IsTagged) (hkeeps : writer.Keeps document) :
    (writer.shown document).IsChain fun a b => a.style.alike b.style = false := by
  induction document generalizing writer with
  | nil => exact .nil
  | cons run rest ih =>
      obtain ⟨htaggedRun, htaggedRest⟩ := List.forall_mem_cons.1 htagged
      have hrun : run.style.literal = false := by rw [htaggedRun]
      have hrest := ih (h.advance hrun) hdistinct.of_cons htaggedRest hkeeps.2
      cases rest with
      | nil => exact .singleton _
      | cons next later =>
          have hnext := htaggedRest next List.mem_cons_self
          have hliteral : next.style.literal = false := by rw [hnext]
          have hdiffers : run.style.alike next.style = false := hdistinct.rel
          have hne : next.style.look ≠ run.style.look := by
            intro heq
            rw [hnext.eq_of_look htaggedRun heq, Style.alike_refl] at hdiffers
            simp at hdiffers
          have hlook := look_ne_of_keeps (h.advance hrun) hkeeps.1 hliteral hkeeps.2.1 hne
          refine List.IsChain.cons_cons ?_ hrest
          rw [Bool.eq_false_iff, Ne, Style.alike_iff_eq rfl rfl]
          exact fun heq => hlook (congrArg Style.look heq).symm

end Writer

namespace Document

/-- A document in the form that reading leaves it in, with looks that are kept. -/
structure IsKept (document : Document) : Prop where
  compact : document.IsCompact
  tagged : ∀ run ∈ document, run.IsTagged
  keeps : Writer.start.Keeps document

theorem isTagged_shown (writer : Writer) {document : Document}
    (h : ∀ run ∈ document, run.IsTagged) : ∀ run ∈ writer.shown document, run.IsTagged := by
  induction document generalizing writer with
  | nil => simp
  | cons run rest ih =>
      obtain ⟨hrun, hrest⟩ := List.forall_mem_cons.1 h
      exact List.forall_mem_cons.2
        ⟨⟨TagStack.isTagged_shown _, hrun.isWord, hrun.noTag⟩, ih _ hrest⟩

theorem IsKept.shown {document : Document} (h : document.IsKept) :
    document.reread = .ok (Writer.start.shown document) ∧
      IsKept (Writer.start.shown document) := by
  have hplain := h.compact.isPlain h.tagged
  have hdistinct := Writer.distinct_shown Writer.isSound_start h.compact.distinct
    (fun run hrun => (h.tagged run hrun).style) h.keeps
  refine ⟨reread_eq_shown hplain hdistinct, ⟨filled_shown _ hplain, hdistinct⟩,
    isTagged_shown _ h.tagged, ?_⟩
  exact Writer.keeps_shown Writer.isSound_start Writer.frame_fits_start Writer.isSound_start rfl
    rfl fun run hrun => (hplain run hrun).running

theorem IsCompact.reread_isKept {document : Document} (hcompact : document.IsCompact)
    (htagged : ∀ run ∈ document, run.IsTagged) :
    ∃ result, document.reread = .ok result ∧ result.IsKept := by
  have hplain := hcompact.isPlain htagged
  obtain ⟨result, hreread, hresult, hresultTagged⟩ :=
    exists_reread fun run hrun => (htagged run hrun).noTag
  refine ⟨result, hreread, hresult, hresultTagged, ?_⟩
  rw [reread_eq hplain, Except.ok.injEq] at hreread
  rw [← hreread, Writer.Keeps, Writer.along_compact _ (Writer.seen_filled _ hplain),
    Writer.along_seen]
  exact Writer.keeps_shown Writer.isSound_start Writer.frame_fits_start Writer.isSound_start rfl
    rfl fun run hrun => (hplain run hrun).running

end Document

end StyledMarkup
