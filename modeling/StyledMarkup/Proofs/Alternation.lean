import StyledMarkup.Proofs.KeptLooks

/-!
# Reading again and again

A document that keeps its looks is written with the same bold and colors each time,
and only its emphasis may come out anew. Where bold ends, emphasis falls back to
what it was before bold, and from there it is toggled by the change that is asked
for. If that is wrong it is wrong the next time as well, but starting from the
wrong style; so the writer of the second copy undoes what the writer of the first
did, and the third writer has the same levels as the first at every run.

So what is read back alternates between two documents, which may be the same.
-/
namespace StyledMarkup

theorem Frame.turn_congr (frame : Frame) {before after shown next : Look}
    (hbold : shown.bold = before.bold) (hcolor : shown.color = before.color)
    (hnextBold : next.bold = after.bold) (hnextColor : next.color = after.color) :
    frame.turn shown next = frame.turn before after := by
  unfold turn turnBold turnColor
  rw [hbold, hcolor, hnextBold, hnextColor]

namespace Levels

theorem xor_toggle (a b d : Bool) : ((a ^^ d) ^^ (b ^^ d)) = (a ^^ b) := by
  cases a <;> cases b <;> cases d <;> decide

theorem xor_cancel {a b c d : Bool} (h : (a ^^ b) = (c ^^ d)) (e : Bool) :
    (b ^^ (d ^^ (a ^^ (c ^^ e)))) = e := by
  cases a <;> cases b <;> cases c <;> simp_all

theorem eq_iff_eq_of_xor_eq {a b c d : Bool} (h : (a ^^ b) = (c ^^ d)) : a = b ↔ c = d := by
  cases a <;> cases b <;> simp_all

/-- Only the change of emphasis counts, not the emphasis itself. -/
theorem turn_congr (levels : Levels) {before after shown next : Look}
    (hbold : shown.bold = before.bold) (hcolor : shown.color = before.color)
    (hnextBold : next.bold = after.bold) (hnextColor : next.color = after.color)
    (hemphasis : (shown.emphasis ^^ next.emphasis) = (before.emphasis ^^ after.emphasis)) :
    levels.turn shown next = levels.turn before after := by
  have hsame := eq_iff_eq_of_xor_eq hemphasis
  unfold turn turnBold turnEmphasis turnColor
  rw [hbold, hcolor, hnextBold, hnextColor]
  simp only [hsame]

/-- The levels of two writers, the second of which follows what the first has shown.
Outside bold and under the colors the two differ in emphasis as they do at the top. -/
structure Mirrors (first second : Levels) : Prop where
  frame : second.frame = first.frame
  bold : first.top.bold = true → (first.top.emphasis ^^ second.top.emphasis) =
    (first.underBold.emphasis ^^ second.underBold.emphasis)
  ground : first.underColors.bold = true →
    (first.underColors.emphasis ^^ second.underColors.emphasis) =
      (first.underBold.emphasis ^^ second.underBold.emphasis)

theorem mirrors_outermost : outermost.Mirrors outermost := by
  constructor <;> simp

theorem Mirrors.keeps {first second : Levels} (h : first.Mirrors second) :
    second.Keeps first.top :=
  ⟨congrArg Frame.bold h.frame, congrArg Frame.color h.frame⟩

theorem Mirrors.keeps_look {first second : Levels} (h : first.Mirrors second) {look : Look}
    (hkeeps : first.Keeps look) : second.Keeps look :=
  ⟨h.keeps.bold.trans hkeeps.bold, h.keeps.color.trans hkeeps.color⟩

/-- What one run makes of three writers: the second goes on mirroring the first, and
the third is where the first is. -/
def Alternates (first second : Levels) (before after : Look) : Prop :=
  (first.turn before after).Mirrors (second.turn first.top (first.turn before after).top) ∧
    first.turn second.top (second.turn first.top (first.turn before after).top).top =
      first.turn before after

section
variable {first second : Levels} {before after : Look} (h : first.Mirrors second)
  (hfirst : first.Fits before) (hsecond : second.Fits first.top)
  (hkeeps : first.Keeps before) (hkept : (first.turn before after).Keeps after)
include h hfirst hsecond hkeeps hkept

theorem Mirrors.frame_turn :
    (second.turn first.top (first.turn before after).top).frame =
      (first.turn before after).frame := by
  rw [Levels.frame_turn hsecond, Levels.frame_turn hfirst, h.frame]
  exact Frame.turn_congr _ hkeeps.bold hkeeps.color hkept.bold hkept.color

theorem Mirrors.keeps_turn :
    (second.turn first.top (first.turn before after).top).Keeps after := by
  have hframe := h.frame_turn hfirst hsecond hkeeps hkept
  exact ⟨(congrArg Frame.bold hframe).trans hkept.bold,
    (congrArg Frame.color hframe).trans hkept.color⟩

/-- The third writer is where the first is if it is to toggle as the first was. -/
theorem Mirrors.turn_eq
    (hemphasis : (second.top.emphasis ^^
        (second.turn first.top (first.turn before after).top).top.emphasis) =
      (before.emphasis ^^ after.emphasis)) :
    first.turn second.top (second.turn first.top (first.turn before after).top).top =
      first.turn before after := by
  have hshown := h.keeps_look hkeeps
  have hnext := h.keeps_turn hfirst hsecond hkeeps hkept
  exact turn_congr first hshown.bold hshown.color hnext.bold hnext.color hemphasis

/-- Where nothing is closed, all writers toggle alike. -/
theorem Mirrors.alternates_of_opens (hbold : before.bold = true → after.bold = true)
    (hcolor : after.color = .default → before.color = .default) :
    Alternates first second before after := by
  have hframe := h.frame_turn hfirst hsecond hkeeps hkept
  have heq := h.turn_eq hfirst hsecond hkeeps hkept
  have hturn := Levels.turn_of_opens hfirst hkeeps after hbold hcolor
  have hturn' := Levels.turn_of_opens hsecond h.keeps (first.turn before after).top
    (by rw [hkeeps.bold, hkept.bold]; exact hbold)
    (by rw [hkeeps.color, hkept.color]; exact hcolor)
  rw [hkeeps.bold, hkeeps.color, hkept.bold, hkept.color] at hturn'
  have htop : (first.turn before after).top.emphasis =
      (first.top.emphasis ^^ (before.emphasis ^^ after.emphasis)) := by
    rw [hturn]
    rfl
  have htop' : (second.turn first.top (first.turn before after).top).top.emphasis =
      (second.top.emphasis ^^ (before.emphasis ^^ after.emphasis)) := by
    rw [hturn', Look.toggled, htop]
    simp
  have hunder : (first.turn before after).underBold =
      if before.bold = after.bold then first.underBold else first.top := by rw [hturn]
  have hunder' : (second.turn first.top (first.turn before after).top).underBold =
      if before.bold = after.bold then second.underBold else second.top := by rw [hturn']
  have hmirrors : after.bold = true →
      ((first.turn before after).top.emphasis ^^
        (second.turn first.top (first.turn before after).top).top.emphasis) =
      ((first.turn before after).underBold.emphasis ^^
        (second.turn first.top (first.turn before after).top).underBold.emphasis) := by
    intro hafter
    rw [htop, htop', xor_toggle, hunder, hunder']
    by_cases hsame : before.bold = after.bold
    · rw [if_pos hsame, if_pos hsame]
      exact h.bold (hkeeps.bold.trans (hsame.trans hafter))
    · rw [if_neg hsame, if_neg hsame]
  refine ⟨⟨hframe, fun hon => hmirrors (hkept.bold.symm.trans hon), fun hon => ?_⟩, heq ?_⟩
  · by_cases hdefault : before.color = .default
    · -- Without a color the ground is the top.
      have hground : (first.turn before after).underColors.emphasis =
          (first.turn before after).top.emphasis := by simp [hturn, hdefault]
      have hground' : (second.turn first.top (first.turn before after).top).underColors.emphasis =
          (second.turn first.top (first.turn before after).top).top.emphasis := by
        simp [hturn', hdefault]
      have hafter : after.bold = true := by simpa [hturn, hdefault] using hon
      rw [hground, hground']
      exact hmirrors hafter
    · have hground : (first.turn before after).underColors = first.underColors := by
        simp [hturn, hdefault]
      have hground' : (second.turn first.top (first.turn before after).top).underColors =
          second.underColors := by simp [hturn', hdefault]
      rw [hground] at hon
      have hbefore : before.bold = true := hkeeps.bold.symm.trans (hfirst.boldOutside.1 hon).1
      have hsame : before.bold = after.bold := hbefore.trans (hbold hbefore).symm
      rw [hground, hground', hunder, hunder', if_pos hsame, if_pos hsame]
      exact h.ground hon
  · rw [htop']
    simp

theorem Mirrors.alternates_of_unpaints (hbold : before.bold = true → after.bold = true)
    (hbefore : before.color ≠ .default) (hafter : after.color = .default) :
    Alternates first second before after := by
  have hframe := h.frame_turn hfirst hsecond hkeeps hkept
  have hturn := Levels.turn_of_unpaints hfirst hkeeps after hbold hbefore hafter
  have hturn' := Levels.turn_of_unpaints hsecond h.keeps (first.turn before after).top
    (by rw [hkeeps.bold, hkept.bold]; exact hbold)
    (by rw [hkeeps.color]; exact hbefore) (by rw [hkept.color]; exact hafter)
  have hshown := h.keeps_look hkeeps
  have hnext := h.keeps_turn hfirst hsecond hkeeps hkept
  have hthird := Levels.turn_of_unpaints (hfirst.congr hshown.bold hshown.color)
    ⟨hkeeps.bold.trans hshown.bold.symm, hkeeps.color.trans hshown.color.symm⟩
    (second.turn first.top (first.turn before after).top).top
    (by rw [hshown.bold]; exact fun hb => hnext.bold.trans (hbold hb))
    (by rw [hshown.color]; exact hbefore) (hnext.color.trans hafter)
  have hground : second.underColors.bold = first.underColors.bold := by
    have houtside : second.underBold.color = first.underBold.color :=
      congrArg Frame.outside h.frame
    rw [Bool.eq_iff_iff, hsecond.boldOutside, hfirst.boldOutside, h.keeps.bold, houtside]
  have hmirrors : first.underColors.bold = true →
      (first.unpaint.top.emphasis ^^ second.unpaint.top.emphasis) =
        (first.unpaint.underBold.emphasis ^^ second.unpaint.underBold.emphasis) := by
    intro hon
    rw [unpaint, unpaint, hground, if_pos hon, if_pos hon]
    exact h.ground hon
  refine ⟨⟨hframe, ?_, ?_⟩, hthird.trans hturn.symm⟩
  · rw [hturn', hturn]
    exact hmirrors
  · rw [hturn', hturn]
    exact hmirrors

/-- Where bold ends, the second writer sets out from the emphasis that the first has
come to, and the third from that of the second: two wrong toggles are none. -/
theorem Mirrors.alternates_of_boldOff (hbefore : before.bold = true)
    (hafter : after.bold = false) : Alternates first second before after := by
  have hframe := h.frame_turn hfirst hsecond hkeeps hkept
  have heq := h.turn_eq hfirst hsecond hkeeps hkept
  have hbold : (first.turn before after).top.bold = false := hkept.bold.trans hafter
  have hground : (first.turn before after).underColors.bold = false := by
    rw [Bool.eq_false_iff]
    intro hon
    rw [((hfirst.turn after).boldOutside.1 hon).1] at hbold
    simp at hbold
  refine ⟨⟨hframe, by simp [hbold], by simp [hground]⟩, ?_⟩
  have hshown := h.keeps_look hkeeps
  have hnext := h.keeps_turn hfirst hsecond hkeeps hkept
  have htop : first.top.bold = true := hkeeps.bold.trans hbefore
  by_cases hcolor : first.underBold.color = .default ∨ after.color ≠ .default
  · have houtside : second.underBold.color = first.underBold.color :=
      congrArg Frame.outside h.frame
    have hfirstTop := emphasis_of_boldOff hfirst after hbefore hafter hcolor
    have hsecondTop := emphasis_of_boldOff hsecond (first.turn before after).top htop hbold
      (by rw [houtside, hkept.color]; exact hcolor)
    apply heq
    rw [hsecondTop, hfirstTop]
    exact xor_cancel (h.bold htop) _
  · rw [not_or, not_not] at hcolor
    obtain ⟨houtside, hdefault⟩ := hcolor
    have hturn := turn_of_boldOff_unpaint hfirst after hbefore hafter houtside hdefault
    exact (turn_of_boldOff_unpaint (hfirst.congr hshown.bold hshown.color) _
      (hshown.bold.trans hbefore) (hnext.bold.trans hafter) houtside
      (hnext.color.trans hdefault)).trans hturn.symm

theorem Mirrors.alternates : Alternates first second before after := by
  rcases Look.change_cases before after with
    ⟨hbefore, hafter⟩ | ⟨hbold, ⟨hbefore, hafter⟩ | hcolor⟩
  · exact h.alternates_of_boldOff hfirst hsecond hkeeps hkept hbefore hafter
  · exact h.alternates_of_unpaints hfirst hsecond hkeeps hkept hbold hbefore hafter
  · exact h.alternates_of_opens hfirst hsecond hkeeps hkept hbold hcolor

end

end Levels

/-- The third of three writers, each of which follows what the one before has shown,
shows what the first has shown. -/
theorem Writer.shown_shown_shown {first second third : Writer} (hfirst : first.IsSound)
    (hsecond : second.IsSound) (hthird : third.IsSound)
    (hlook : second.look = first.levels.top) (hlook' : third.look = second.levels.top)
    (hmirrors : first.levels.Mirrors second.levels) (hlevels : third.levels = first.levels)
    (hkeeps : first.levels.Keeps first.look) {document : Document}
    (h : ∀ run ∈ document, run.style.literal = false) (hkept : first.Keeps document) :
    third.shown (second.shown (first.shown document)) = first.shown document := by
  induction document generalizing first second third with
  | nil => rfl
  | cons run rest ih =>
      obtain ⟨hrun, hrest⟩ := List.forall_mem_cons.1 h
      obtain ⟨hkeepsRun, hkeptRest⟩ := hkept
      have hfirstLevels := levels_advance hfirst hrun
      have hfirstNext := hfirst.advance hrun
      have hfirstLook : (first.advance run).look = run.style.look := rfl
      simp only [shown_cons]
      generalize first.advance run = firstNext at *
      -- The run as the second writer has it, and then the third.
      have hsecondLevels := levels_advance hsecond
        (rfl : (Run.mk firstNext.openTags.shown run.words).style.literal = false)
      have hsecondNext := hsecond.advance
        (rfl : (Run.mk firstNext.openTags.shown run.words).style.literal = false)
      have hsecondLook :
        (second.advance ⟨firstNext.openTags.shown, run.words⟩).look = firstNext.levels.top := rfl
      generalize second.advance ⟨firstNext.openTags.shown, run.words⟩ = secondNext at *
      have hthirdLevels := levels_advance hthird
        (rfl : (Run.mk secondNext.openTags.shown run.words).style.literal = false)
      have hthirdNext := hthird.advance
        (rfl : (Run.mk secondNext.openTags.shown run.words).style.literal = false)
      have hthirdLook :
        (third.advance ⟨secondNext.openTags.shown, run.words⟩).look = secondNext.levels.top := rfl
      generalize third.advance ⟨secondNext.openTags.shown, run.words⟩ = thirdNext at *
      rw [hlook] at hsecondLevels
      rw [hlevels, hlook'] at hthirdLevels
      have hfits := hsecond.fits
      rw [hlook] at hfits
      have hkeepsTurn := hkeepsRun
      rw [hfirstLevels] at hkeepsTurn
      obtain ⟨hmirrorsNext, hthirdTurn⟩ := hmirrors.alternates hfirst.fits hfits hkeeps hkeepsTurn
      have hsecondTurn : secondNext.levels = second.levels.turn first.levels.top
          (first.levels.turn first.look run.style.look).top := by
        rw [hsecondLevels, ← hfirstLevels]
        rfl
      have hthirdSame : thirdNext.levels = firstNext.levels := by
        rw [hfirstLevels, ← hthirdTurn, ← hsecondTurn, hthirdLevels]
        rfl
      have hshown : thirdNext.openTags.shown = firstNext.openTags.shown :=
        (TagStack.shown_eq_iff_look (TagStack.isTagged_shown _)).2
          (congrArg Levels.top hthirdSame)
      rw [← hsecondTurn, ← hfirstLevels] at hmirrorsNext
      rw [← hfirstLook] at hkeepsRun
      rw [hshown, ih hfirstNext hsecondNext hthirdNext hsecondLook hthirdLook hmirrorsNext
        hthirdSame hkeepsRun hrest hkeptRest]

namespace Document

theorem IsKept.shown_shown_shown {document : Document} (h : document.IsKept) :
    Writer.start.shown (Writer.start.shown (Writer.start.shown document)) =
      Writer.start.shown document := by
  have hkeeps : Writer.start.levels.Keeps Writer.start.look := ⟨rfl, rfl⟩
  exact Writer.shown_shown_shown Writer.isSound_start Writer.isSound_start Writer.isSound_start
    rfl rfl Levels.mirrors_outermost rfl hkeeps (fun run hrun => (h.tagged run hrun).running)
    h.keeps

end Document

end StyledMarkup
