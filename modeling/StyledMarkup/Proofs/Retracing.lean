import StyledMarkup.Proofs.Alternation

/-!
# Going the same way again

What is read back from a document is written by a second writer, which follows what the
first has shown. It need not show the same: emphasis inside bold is forgotten with bold
and toggled anew each time. But where bold and emphasis do not mix, the second writer has
the same levels as the first at every run, whatever else goes wrong with the document.
So what is read back from such a document comes back unchanged.
-/
namespace StyledMarkup

namespace Levels

/-- What is shown before and behind a transition asks for the same transition again. -/
def Retraces (levels : Levels) (before after : Look) : Prop :=
  levels.turn levels.top (levels.turn before after).top = levels.turn before after

/-- The top is the look of the run. -/
def Shows (levels : Levels) (look : Look) : Prop := levels.top = look

/-- Levels fit the look that they show. -/
theorem Fits.self {levels : Levels} {look : Look} (h : levels.Fits look) :
    levels.Fits levels.top :=
  ⟨id, id, h.once, h.colorless, h.boldOutside, h.noBold, h.noColor⟩

section NotBold
variable {levels : Levels} {before after : Look}

theorem Keeps.turn_of_not_bold (h : levels.Keeps before) (hfits : levels.Fits before)
    (hbefore : before.bold = false) (hafter : after.bold = false) :
    (levels.turn before after).Keeps after := by
  have hkept : before.bold = true → after.bold = true := by simp [hbefore]
  rcases Look.change_cases before after with ⟨hbold, -⟩ | ⟨-, ⟨hcolor, hdefault⟩ | hopens⟩
  · simp [hbefore] at hbold
  · have hground : levels.underColors.bold = false := by
      rw [Bool.eq_false_iff]
      intro hon
      have htop := (hfits.boldOutside.1 hon).1
      rw [h.bold, hbefore] at htop
      exact Bool.noConfusion htop
    rw [turn_of_unpaints hfits h after hkept hcolor hdefault]
    exact ⟨hground.trans hafter.symm, hfits.colorless.trans hdefault.symm⟩
  · rw [turn_of_opens hfits h after hkept hopens]
    exact ⟨rfl, rfl⟩

/-- Without bold only closing colors loses anything, and that leads to what is under the
colors in either case. -/
theorem retraces_of_not_bold (h : levels.Keeps before) (hfits : levels.Fits before)
    (hbefore : before.bold = false) (hafter : after.bold = false) :
    levels.Retraces before after := by
  have hnext := h.turn_of_not_bold hfits hbefore hafter
  have hkept : before.bold = true → after.bold = true := by simp [hbefore]
  rcases Look.change_cases before after with ⟨hbold, -⟩ | ⟨-, ⟨hcolor, hdefault⟩ | hopens⟩
  · simp [hbefore] at hbold
  · have hagain := turn_of_unpaints hfits.self ⟨rfl, rfl⟩ (levels.turn before after).top
      (by rw [h.bold, hnext.bold]; exact hkept) (by rw [h.color]; exact hcolor)
      (hnext.color.trans hdefault)
    exact hagain.trans (turn_of_unpaints hfits h after hkept hcolor hdefault).symm
  · refine turn_congr levels h.bold h.color hnext.bold hnext.color ?_
    rw [turn_of_opens hfits h after hkept hopens]
    simp [Look.toggled]

end NotBold

/-- No level is emphasised. -/
structure IsUpright (levels : Levels) : Prop where
  top : levels.top.emphasis = false
  underBold : levels.underBold.emphasis = false
  underColors : levels.underColors.emphasis = false

theorem isUpright_outermost : outermost.IsUpright := ⟨rfl, rfl, rfl⟩

theorem IsUpright.turnBold {levels : Levels} (h : levels.IsUpright) (before after : Look) :
    (levels.turnBold before after).IsUpright := by
  obtain ⟨htop, hbold, hcolors⟩ := h
  unfold Levels.turnBold
  split_ifs
  · exact ⟨htop, hbold, hcolors⟩
  · refine ⟨htop, htop, ?_⟩
    unfold boldOn
    split_ifs <;> assumption
  · refine ⟨hbold, rfl, ?_⟩
    unfold boldOff
    split_ifs <;> assumption

theorem IsUpright.turnColor {levels : Levels} (h : levels.IsUpright) (before after : Look) :
    (levels.turnColor before after).IsUpright := by
  obtain ⟨htop, hbold, hcolors⟩ := h
  unfold Levels.turnColor
  split_ifs
  · exact ⟨htop, hbold, hcolors⟩
  · refine ⟨hcolors, ?_, hcolors⟩
    unfold unpaint
    split_ifs
    · exact hbold
    · rfl
  · exact ⟨htop, hbold, hcolors⟩

theorem IsUpright.turn {levels : Levels} (h : levels.IsUpright) {before after : Look}
    (hsame : before.emphasis = after.emphasis) : (levels.turn before after).IsUpright := by
  unfold Levels.turn turnEmphasis
  rw [if_pos hsame]
  exact (h.turnBold before after).turnColor before after

/-- Without emphasis the frame is all there is. -/
theorem IsUpright.eq_of_frame {a b : Levels} (ha : a.IsUpright) (hb : b.IsUpright)
    {look other : Look} (hfitsA : a.Fits look) (hfitsB : b.Fits other)
    (hframe : a.frame = b.frame) : a = b := by
  have hbold : a.top.bold = b.top.bold := congrArg Frame.bold hframe
  have hcolor : a.top.color = b.top.color := congrArg Frame.color hframe
  have houtside : a.underBold.color = b.underBold.color := congrArg Frame.outside hframe
  have htop : a.top = b.top := Look.ext hbold (ha.top.trans hb.top.symm) hcolor
  have hunderBold : a.underBold = b.underBold :=
    Look.ext (hfitsA.once.trans hfitsB.once.symm) (ha.underBold.trans hb.underBold.symm) houtside
  have hground : a.underColors.bold = b.underColors.bold := by
    rw [Bool.eq_iff_iff, hfitsA.boldOutside, hfitsB.boldOutside, hbold, houtside]
  have hunderColors : a.underColors = b.underColors :=
    Look.ext hground (ha.underColors.trans hb.underColors.symm)
      (hfitsA.colorless.trans hfitsB.colorless.symm)
  cases a
  cases b
  simp_all

theorem retraces_of_upright {levels : Levels} {before after : Look} (h : levels.IsUpright)
    (hfits : levels.Fits before) (hframe : levels.frame.Fits before)
    (hsame : before.emphasis = after.emphasis) : levels.Retraces before after := by
  have hnext := h.turn hsame
  have hturn := frame_turn hfits after
  refine IsUpright.eq_of_frame (h.turn (h.top.trans hnext.top.symm)) hnext
    (hfits.self.turn _) (hfits.turn after) ?_
  rw [frame_turn hfits.self, hturn]
  refine Frame.turn_shown hframe rfl rfl ?_ ?_
  · rw [← hturn]
    rfl
  · rw [← hturn]
    rfl

end Levels

namespace Writer

/-- A writer that follows what another has shown shows the same, if it has the levels of
the other at the beginning and every transition is retraced. -/
theorem along_shown {I : Levels → Look → Prop} {Q : Look → Prop}
    (hstep : ∀ levels before after, levels.Fits before → I levels before → Q after →
      I (levels.turn before after) after ∧ levels.Retraces before after)
    {writer follower : Writer} (hwriter : writer.IsSound) (hfollower : follower.IsSound)
    (hlook : follower.look = writer.levels.top) (hlevels : follower.levels = writer.levels)
    (hinvariant : I writer.levels writer.look) {document : Document}
    (h : ∀ run ∈ document, run.style.literal = false ∧ Q run.style.look) :
    follower.Along Levels.Shows (writer.shown document) := by
  induction document generalizing writer follower with
  | nil => trivial
  | cons run rest ih =>
      obtain ⟨⟨hrun, hlooks⟩, hrest⟩ := List.forall_mem_cons.1 h
      have hturn := levels_advance hwriter hrun
      obtain ⟨hnext, hretraces⟩ := hstep _ _ _ hwriter.fits hinvariant hlooks
      rw [← hturn] at hnext
      have hsame : (follower.advance
          ⟨(writer.advance run).openTags.shown, run.words⟩).levels =
            (writer.advance run).levels := by
        rw [levels_advance hfollower rfl, hlevels, hlook, hturn, ← hretraces, ← hturn]
        rfl
      rw [shown_cons, along_cons]
      refine ⟨congrArg Levels.top hsame, ?_⟩
      exact ih (hwriter.advance hrun) (hfollower.advance rfl) rfl hsame hnext hrest

theorem along_shown_of_not_bold {document : Document}
    (h : ∀ run ∈ document, run.style.literal = false)
    (hbold : ∀ run ∈ document, run.style.bold = false) :
    start.Along Levels.Shows (start.shown document) := by
  refine along_shown (I := fun levels look => levels.Keeps look ∧ look.bold = false)
    (Q := fun look => look.bold = false) ?_ isSound_start isSound_start rfl rfl
    ⟨⟨rfl, rfl⟩, rfl⟩ fun run hrun => ⟨h run hrun, hbold run hrun⟩
  rintro levels before after hfits ⟨hkeeps, hbefore⟩ hafter
  exact ⟨⟨hkeeps.turn_of_not_bold hfits hbefore hafter, hafter⟩,
    Levels.retraces_of_not_bold hkeeps hfits hbefore hafter⟩

theorem along_shown_of_unemphasised {document : Document}
    (h : ∀ run ∈ document, run.style.literal = false)
    (hemphasis : ∀ run ∈ document, run.style.emphasis = false) :
    start.Along Levels.Shows (start.shown document) := by
  refine along_shown
    (I := fun levels look => levels.IsUpright ∧ levels.frame.Fits look ∧ look.emphasis = false)
    (Q := fun look => look.emphasis = false) ?_ isSound_start isSound_start rfl rfl
    ⟨Levels.isUpright_outermost, frame_fits_start, rfl⟩
    fun run hrun => ⟨h run hrun, hemphasis run hrun⟩
  rintro levels before after hfits ⟨hupright, hframe, hbefore⟩ hafter
  have hsame := hbefore.trans hafter.symm
  refine ⟨⟨hupright.turn hsame, ?_, hafter⟩,
    Levels.retraces_of_upright hupright hfits hframe hsame⟩
  rw [Levels.frame_turn hfits]
  exact hframe.turn after

theorem shown_eq_self_iff_along {writer : Writer} {document : Document}
    (h : ∀ run ∈ document, run.style.IsTagged) :
    writer.shown document = document ↔ writer.Along Levels.Shows document := by
  induction document generalizing writer with
  | nil => exact ⟨fun _ => trivial, fun _ => rfl⟩
  | cons run rest ih =>
      obtain ⟨hrun, hrest⟩ := List.forall_mem_cons.1 h
      have hshown : (writer.advance run).openTags.shown = run.style ↔
          (writer.advance run).levels.Shows run.style.look := TagStack.shown_eq_iff_look hrun
      rw [shown_cons, List.cons.injEq, along_cons, ih hrest, ← hshown]
      constructor
      · rintro ⟨heq, halong⟩
        exact ⟨congrArg Run.style heq, halong⟩
      · rintro ⟨hstyle, halong⟩
        exact ⟨by rw [hstyle], halong⟩

end Writer

namespace Document

/-- If the second writer shows what the first has shown, then what is read back comes
back. -/
theorem exists_reread_of_along {document : Document} (h : ∀ run ∈ document, run.IsPlain)
    (halong : Writer.start.Along Levels.Shows (Writer.start.shown document)) :
    ∃ once, document.reread = .ok once ∧ once.reread = .ok once := by
  obtain ⟨once, hreread, hcompact, htagged⟩ := exists_reread fun run hrun => (h run hrun).noTag
  refine ⟨once, hreread, ?_⟩
  rw [reread_eq h, Except.ok.injEq] at hreread
  rw [reread_eq_self_iff_shown hcompact htagged,
    Writer.shown_eq_self_iff_along fun run hrun => (htagged run hrun).style, ← hreread,
    Writer.along_compact _ (Writer.seen_filled _ h), Writer.along_seen]
  exact halong

/-- Where bold and emphasis do not mix, reading back is a projection: what is read back
from a document, compact or not, is read back unchanged, and so is its markup. -/
theorem reread_reread_of_unmixed {document : Document} (h : ∀ run ∈ document, run.IsPlain)
    (hunmixed : (∀ run ∈ document, run.style.bold = false) ∨
      ∀ run ∈ document, run.style.emphasis = false) :
    ∃ once twice, document.reread = .ok once ∧ once.reread = .ok twice ∧ twice = once ∧
      twice.markup = once.markup := by
  have hrunning := fun run hrun => (h run hrun).running
  have halong : Writer.start.Along Levels.Shows (Writer.start.shown document) := by
    rcases hunmixed with hbold | hemphasis
    · exact Writer.along_shown_of_not_bold hrunning hbold
    · exact Writer.along_shown_of_unemphasised hrunning hemphasis
  obtain ⟨once, hreread, hagain⟩ := exists_reread_of_along h halong
  exact ⟨once, once, hreread, hagain, rfl, rfl⟩

/-- Neither the color of the second run nor the gap before the third is read back. -/
def fadingDocument : Document :=
  [⟨{ bold := true, italic := true, color := .red }, ["a"]⟩,
    ⟨{ underline := 7, color := .red }, ["b"]⟩, ⟨{ strike := true, size := 200 }, ["c", "d"]⟩]

theorem reread_reread_fadingDocument :
    (∀ run ∈ fadingDocument, run.IsPlain) ∧
      (∀ run ∈ fadingDocument, run.style.emphasis = false) ∧
      fadingDocument.reread =
        .ok [⟨{ bold := true, color := .red }, ["a"]⟩, ⟨{}, ["bc", "d"]⟩] ∧
      ∃ once twice, fadingDocument.reread = .ok once ∧ once.reread = .ok twice ∧ twice = once ∧
        twice.markup = once.markup := by
  have hplain : ∀ run ∈ fadingDocument, run.IsPlain := by decide
  have hemphasis : ∀ run ∈ fadingDocument, run.style.emphasis = false := by decide
  have hreread : (Writer.start.seen fadingDocument).compact =
      [⟨{ bold := true, color := .red }, ["a"]⟩, ⟨{}, ["bc", "d"]⟩] := by decide
  exact ⟨hplain, hemphasis, (reread_eq hplain).trans (congrArg Except.ok hreread),
    reread_reread_of_unmixed hplain (.inr hemphasis)⟩

end Document

end StyledMarkup
