import StyledMarkup.Proofs.Faithfulness
import StyledMarkup.Proofs.TagLevels

/-!
# Transitions on levels

Each of the five things that a writer does to its stack is restated on the three
levels: turning bold on or off, toggling emphasis, opening a color and going back
to the default color. `Levels.turn` puts them together in the writer's order.

`Levels.Fits` says how the levels hang together and what they owe to the style
that the writer is in. It holds before the first run and every transition keeps
it, and while it holds the levels of the stack are moved as stated here.
-/
namespace StyledMarkup

/-- The look with its emphasis toggled if the other two differ in theirs. -/
def Look.toggled (look before after : Look) : Look :=
  { look with emphasis := look.emphasis ^^ (before.emphasis ^^ after.emphasis) }

/-- A change of look ends bold, or else resets a color, or else closes nothing. -/
theorem Look.change_cases (before after : Look) :
    (before.bold = true ∧ after.bold = false) ∨
      (before.bold = true → after.bold = true) ∧
        ((before.color ≠ .default ∧ after.color = .default) ∨
          (after.color = .default → before.color = .default)) := by
  by_cases hoff : before.bold = true ∧ after.bold = false
  · exact .inl hoff
  · have hbold : before.bold = true → after.bold = true := by
      intro hbefore
      by_contra hafter
      exact hoff ⟨hbefore, by simpa using hafter⟩
    refine .inr ⟨hbold, ?_⟩
    by_cases hbefore : before.color = .default
    · exact .inr fun _ => hbefore
    · by_cases hafter : after.color = .default
      · exact .inl ⟨hbefore, hafter⟩
      · exact .inr fun hdefault => absurd hdefault hafter

namespace Levels

/-- Outside all tags. -/
def outermost : Levels := ⟨{}, {}, {}⟩

def boldOn (levels : Levels) : Levels :=
  let top := { levels.top with bold := true }
  ⟨top, levels.top, if levels.top.color = .default then top else levels.underColors⟩

def boldOff (levels : Levels) : Levels :=
  ⟨levels.underBold, {},
    if levels.underBold.color = .default then levels.underBold else levels.underColors⟩

def toggle (levels : Levels) : Levels :=
  let top := { levels.top with emphasis := !levels.top.emphasis }
  ⟨top, levels.underBold, if levels.top.color = .default then top else levels.underColors⟩

def paint (levels : Levels) (color : Color) : Levels :=
  { levels with top := { levels.top with color := color } }

def unpaint (levels : Levels) : Levels :=
  ⟨levels.underColors, if levels.underColors.bold then levels.underBold else {},
    levels.underColors⟩

def turnBold (before after : Look) (levels : Levels) : Levels :=
  if before.bold = after.bold then levels
  else if after.bold then levels.boldOn
  else levels.boldOff

def turnEmphasis (before after : Look) (levels : Levels) : Levels :=
  if before.emphasis = after.emphasis then levels else levels.toggle

def turnColor (before after : Look) (levels : Levels) : Levels :=
  if before.color = after.color then levels
  else if after.color = .default then levels.unpaint
  else levels.paint after.color

/-- The levels behind the transition from one look to another. -/
def turn (before after : Look) (levels : Levels) : Levels :=
  turnColor before after (turnEmphasis before after (turnBold before after levels))

@[simp] theorem turn_self (look : Look) (levels : Levels) : turn look look levels = levels := by
  simp [turn, turnBold, turnEmphasis, turnColor]

/-- The levels of a stack whose writer is in the given look. -/
structure Fits (levels : Levels) (look : Look) : Prop where
  bold : levels.top.bold = true → look.bold = true
  color : levels.top.color ≠ .default → look.color ≠ .default
  once : levels.underBold.bold = false
  colorless : levels.underColors.color = .default
  boldOutside : levels.underColors.bold = true ↔
    levels.top.bold = true ∧ levels.underBold.color = .default
  noBold : levels.top.bold = false → levels.underBold = {}
  noColor : levels.top.color = .default → levels.underColors = levels.top

theorem fits_outermost : outermost.Fits {} := by
  constructor <;> simp [outermost]

/-- What levels owe to a look does not depend on its emphasis. -/
theorem Fits.congr {levels : Levels} {look other : Look} (h : levels.Fits look)
    (hbold : other.bold = look.bold) (hcolor : other.color = look.color) : levels.Fits other :=
  ⟨by rw [hbold]; exact h.bold, by rw [hcolor]; exact h.color, h.once, h.colorless,
    h.boldOutside, h.noBold, h.noColor⟩

/-- No color is outside bold if none is open at all. -/
theorem Fits.underBold_color {levels : Levels} {look : Look} (h : levels.Fits look)
    (htop : levels.top.color = .default) : levels.underBold.color = .default := by
  cases hbold : levels.top.bold with
  | false => rw [h.noBold hbold]
  | true =>
      have hground : levels.underColors.bold = true := by rw [h.noColor htop, hbold]
      exact (h.boldOutside.1 hground).2

theorem Fits.boldOn {levels : Levels} {look : Look} (h : levels.Fits look)
    (hlook : look.bold = false) : levels.boldOn.Fits { look with bold := true } := by
  obtain ⟨hbold, hcolor, honce, hcolorless, hout, hnoBold, hnoColor⟩ := h
  have htop : levels.top.bold = false := by
    rw [Bool.eq_false_iff]
    exact fun htrue => by simp [hbold htrue] at hlook
  unfold Levels.boldOn
  by_cases hdefault : levels.top.color = .default
  · constructor <;> simp_all
  · constructor <;> simp_all

theorem Fits.boldOff {levels : Levels} {look : Look} (h : levels.Fits look) :
    levels.boldOff.Fits { look with bold := false } := by
  obtain ⟨hbold, hcolor, honce, hcolorless, hout, hnoBold, hnoColor⟩ := h
  unfold Levels.boldOff
  by_cases hdefault : levels.underBold.color = .default
  · constructor <;> simp_all
  · have hkept : levels.top.color ≠ .default := by
      intro htop
      cases hb : levels.top.bold <;> simp_all
    constructor <;> simp_all

theorem Fits.toggle {levels : Levels} {look : Look} (h : levels.Fits look) (emphasis : Bool) :
    levels.toggle.Fits { look with emphasis := emphasis } := by
  obtain ⟨hbold, hcolor, honce, hcolorless, hout, hnoBold, hnoColor⟩ := h
  unfold Levels.toggle
  by_cases hdefault : levels.top.color = .default
  · constructor <;> simp_all
  · constructor <;> simp_all

theorem Fits.paint {levels : Levels} {look : Look} (h : levels.Fits look) {color : Color}
    (hcolor : color ≠ .default) : (levels.paint color).Fits { look with color := color } := by
  obtain ⟨hbold, -, honce, hcolorless, hout, hnoBold, hnoColor⟩ := h
  unfold Levels.paint
  constructor <;> simp_all

theorem Fits.unpaint {levels : Levels} {look : Look} (h : levels.Fits look) :
    levels.unpaint.Fits { look with color := .default } := by
  obtain ⟨hbold, hcolor, honce, hcolorless, hout, hnoBold, hnoColor⟩ := h
  unfold Levels.unpaint
  cases hb : levels.underColors.bold with
  | false => constructor <;> simp_all
  | true => constructor <;> simp_all

theorem Fits.turnBold {levels : Levels} {before : Look} (h : levels.Fits before) (after : Look) :
    (turnBold before after levels).Fits { before with bold := after.bold } := by
  unfold Levels.turnBold
  split
  · rename_i hsame
    rw [← hsame]
    exact h
  · rename_i hchange
    split
    · rename_i hon
      rw [hon] at hchange ⊢
      exact h.boldOn (by simpa using hchange)
    · rename_i hoff
      rw [Bool.eq_false_iff.2 hoff]
      exact h.boldOff

theorem Fits.turnEmphasis {levels : Levels} {look : Look} (h : levels.Fits look)
    (before after : Look) (hlook : look.emphasis = before.emphasis) :
    (turnEmphasis before after levels).Fits { look with emphasis := after.emphasis } := by
  unfold Levels.turnEmphasis
  split
  · rename_i hsame
    rw [← hsame, ← hlook]
    exact h
  · exact h.toggle after.emphasis

theorem Fits.turnColor {levels : Levels} {look : Look} (h : levels.Fits look)
    (before after : Look) (hlook : look.color = before.color) :
    (turnColor before after levels).Fits { look with color := after.color } := by
  unfold Levels.turnColor
  split
  · rename_i hsame
    rw [← hsame, ← hlook]
    exact h
  · split
    · rename_i hdefault
      rw [hdefault]
      exact h.unpaint
    · rename_i hcolor
      exact h.paint hcolor

theorem Fits.turn {levels : Levels} {before : Look} (h : levels.Fits before) (after : Look) :
    (turn before after levels).Fits after :=
  ((h.turnBold after).turnEmphasis before after rfl).turnColor before after rfl

/-- The top shows what the writer has in mind, emphasis apart. -/
structure Keeps (levels : Levels) (look : Look) : Prop where
  bold : levels.top.bold = look.bold
  color : levels.top.color = look.color

theorem ground_eq {levels : Levels}
    (h : levels.top.color = .default → levels.underColors = levels.top) :
    (if levels.top.color = .default then levels.top else levels.underColors) =
      levels.underColors := by
  split
  · exact (h ‹_›).symm
  · rfl

theorem turnEmphasis_eq {levels : Levels} (before after : Look)
    (hnoColor : levels.top.color = .default → levels.underColors = levels.top) :
    levels.turnEmphasis before after =
      ⟨levels.top.toggled before after, levels.underBold,
        if levels.top.color = .default then levels.top.toggled before after
        else levels.underColors⟩ := by
  unfold turnEmphasis
  by_cases hsame : before.emphasis = after.emphasis
  · rw [if_pos hsame]
    have htoggled : levels.top.toggled before after = levels.top := by
      simp [Look.toggled, hsame]
    rw [htoggled, ground_eq hnoColor]
  · rw [if_neg hsame]
    have htoggled : levels.top.toggled before after =
        { levels.top with emphasis := !levels.top.emphasis } := by
      have hxor : (before.emphasis ^^ after.emphasis) = true := by simpa using hsame
      simp [Look.toggled, hxor]
    rw [htoggled]
    rfl

theorem top_emphasis_turnColor (before : Look) {after : Look} (h : after.color ≠ .default)
    (levels : Levels) : (levels.turnColor before after).top.emphasis = levels.top.emphasis := by
  by_cases hsame : before.color = after.color
  · rw [turnColor, if_pos hsame]
  · rw [turnColor, if_neg hsame, if_neg h, paint]

theorem underColors_turnColor (before : Look) {after : Look} (h : after.color ≠ .default)
    (levels : Levels) : (levels.turnColor before after).underColors = levels.underColors := by
  by_cases hsame : before.color = after.color
  · rw [turnColor, if_pos hsame]
  · rw [turnColor, if_neg hsame, if_neg h, paint]

theorem turn_of_opens {levels : Levels} {before : Look} (h : levels.Fits before)
    (hkeeps : levels.Keeps before) (after : Look)
    (hbold : before.bold = true → after.bold = true)
    (hcolor : after.color = .default → before.color = .default) :
    levels.turn before after =
      ⟨⟨after.bold, (levels.top.toggled before after).emphasis, after.color⟩,
        if before.bold = after.bold then levels.underBold else levels.top,
        if before.color = .default then
          ⟨after.bold, (levels.top.toggled before after).emphasis, .default⟩
        else levels.underColors⟩ := by
  have hmiddle := (h.turnBold after).noColor
  rw [turn, turnEmphasis_eq before after hmiddle]
  have hbolded : levels.turnBold before after =
      ⟨{ levels.top with bold := after.bold },
        if before.bold = after.bold then levels.underBold else levels.top,
        if levels.top.color = .default then { levels.top with bold := after.bold }
        else levels.underColors⟩ := by
    unfold turnBold
    by_cases hsame : before.bold = after.bold
    · have htop := hkeeps.bold.trans hsame
      rw [if_pos hsame, if_pos hsame, ← htop, ground_eq h.noColor]
    · have hon : after.bold = true := by
        cases hb : before.bold with
        | true => exact hbold hb
        | false => simpa [hb] using hsame
      rw [if_neg hsame, if_neg hsame, if_pos hon, hon]
      rfl
  rw [hbolded]
  unfold turnColor
  by_cases hsame : before.color = after.color
  · have htop := hkeeps.color.trans hsame
    rw [if_pos hsame, hsame, ← htop]
    by_cases hdefault : levels.top.color = .default
    · simp [hdefault, Look.toggled]
    · simp [hdefault, Look.toggled]
  · have hafter : after.color ≠ .default := by
      intro hdefault
      exact hsame ((hcolor hdefault).trans hdefault.symm)
    rw [if_neg hsame, if_neg hafter, ← hkeeps.color]
    by_cases hdefault : levels.top.color = .default
    · simp [paint, hdefault, Look.toggled]
    · simp [paint, hdefault, Look.toggled]

theorem turn_of_unpaints {levels : Levels} {before : Look} (h : levels.Fits before)
    (hkeeps : levels.Keeps before) (after : Look)
    (hbold : before.bold = true → after.bold = true)
    (hbefore : before.color ≠ .default) (hafter : after.color = .default) :
    levels.turn before after = levels.unpaint := by
  have htop : levels.top.color ≠ .default := by
    rw [hkeeps.color]
    exact hbefore
  have hmiddle := (h.turnBold after).noColor
  rw [turn, turnEmphasis_eq before after hmiddle]
  unfold turnBold turnColor
  rw [hafter, if_neg hbefore, if_pos rfl]
  by_cases hsame : before.bold = after.bold
  · simp [hsame, htop, unpaint]
  · have hoff : before.bold = false := by
      rw [Bool.eq_false_iff]
      exact fun hb => hsame (hb.trans (hbold hb).symm)
    have hon : after.bold = true := by simpa [hoff] using hsame
    have hunder : levels.underColors.bold = false := by
      rw [Bool.eq_false_iff]
      intro hb
      have hb := (h.boldOutside.1 hb).1
      rw [hkeeps.bold, hoff] at hb
      exact absurd hb (by simp)
    simp [hoff, hon, boldOn, htop, unpaint, hunder]

theorem turn_of_boldOff {levels : Levels} {before : Look} (h : levels.Fits before)
    (after : Look) (hbefore : before.bold = true) (hafter : after.bold = false) :
    levels.turn before after =
      turnColor before after ⟨levels.underBold.toggled before after, {},
        if levels.underBold.color = .default then levels.underBold.toggled before after
        else levels.underColors⟩ := by
  have hbold : turnBold before after levels = levels.boldOff := by
    simp [turnBold, hbefore, hafter]
  rw [turn, hbold, turnEmphasis_eq before after h.boldOff.noColor]
  by_cases hdefault : levels.underBold.color = .default
  · simp [boldOff, hdefault]
  · simp [boldOff, hdefault]

/-- Emphasis falls back to what it was outside bold, unless a color outside bold has
to be closed as well. -/
theorem emphasis_of_boldOff {levels : Levels} {before : Look} (h : levels.Fits before)
    (after : Look) (hbefore : before.bold = true) (hafter : after.bold = false)
    (hcolor : levels.underBold.color = .default ∨ after.color ≠ .default) :
    (levels.turn before after).top.emphasis =
      (levels.underBold.emphasis ^^ (before.emphasis ^^ after.emphasis)) := by
  rw [turn_of_boldOff h after hbefore hafter]
  by_cases hdefault : after.color = .default
  · have houtside : levels.underBold.color = .default := by
      rcases hcolor with houtside | hother
      · exact houtside
      · exact absurd hdefault hother
    rw [if_pos houtside]
    by_cases hsame : before.color = after.color
    · rw [turnColor, if_pos hsame]
      rfl
    · rw [turnColor, if_neg hsame, if_pos hdefault]
      rfl
  · rw [top_emphasis_turnColor before hdefault]
    rfl

/-- If a color outside bold is closed with bold, then only what is under the colors
is left. -/
theorem turn_of_boldOff_unpaint {levels : Levels} {before : Look} (h : levels.Fits before)
    (after : Look) (hbefore : before.bold = true) (hafter : after.bold = false)
    (houtside : levels.underBold.color ≠ .default) (hcolor : after.color = .default) :
    levels.turn before after = ⟨levels.underColors, {}, levels.underColors⟩ := by
  have htop : levels.top.color ≠ .default := fun htop => houtside (h.underBold_color htop)
  have hchange : before.color ≠ after.color := by
    rw [hcolor]
    exact h.color htop
  rw [turn_of_boldOff h after hbefore hafter, if_neg houtside, turnColor, if_neg hchange,
    if_pos hcolor, unpaint]
  simp

end Levels

namespace TagStack

theorem look_color_eq_default {stack : TagStack} :
    stack.look.color = .default ↔ stack.hasColor = false := by
  rw [Bool.eq_false_iff, Ne, hasColor_iff_look, not_not]

theorem levels_boldTag (stack : TagStack) :
    levels (boldTag :: stack) = stack.levels.boldOn := by
  have hunder : underBold (boldTag :: stack) = stack := if_pos rfl
  cases hcolor : stack.hasColor with
  | true =>
      have hlook : stack.look.color ≠ .default := hasColor_iff_look.1 hcolor
      simp [levels, Levels.boldOn, hunder, underColors_cons hcolor, look_boldTag, hlook]
  | false =>
      have hlook : stack.look.color = .default := look_color_eq_default.2 hcolor
      have hnone : hasColor (boldTag :: stack) = false := by
        simpa [hasColor, Color.isTag] using hcolor
      simp [levels, Levels.boldOn, hunder, underColors_eq_self hnone, look_boldTag, hlook]

theorem levels_underBold {stack : TagStack} (honce : boldTag ∉ stack.underBold) :
    stack.underBold.levels = stack.levels.boldOff := by
  have hunder : stack.underBold.underBold = [] := underBold_eq_nil honce
  cases hcolor : stack.underBold.hasColor with
  | true =>
      have hlook : stack.underBold.look.color ≠ .default := hasColor_iff_look.1 hcolor
      simp [levels, Levels.boldOff, hunder, ← underColors_of_hasColor_underBold hcolor, hlook]
  | false =>
      have hlook : stack.underBold.look.color = .default := look_color_eq_default.2 hcolor
      simp [levels, Levels.boldOff, hunder, underColors_eq_self hcolor, hlook]

theorem levels_emphasisTag (stack : TagStack) :
    levels (emphasisTag :: stack) = stack.levels.toggle := by
  have hunder : underBold (emphasisTag :: stack) = stack.underBold := if_neg (by decide)
  cases hcolor : stack.hasColor with
  | true =>
      have hlook : stack.look.color ≠ .default := hasColor_iff_look.1 hcolor
      simp [levels, Levels.toggle, hunder, underColors_cons hcolor, look_emphasisTag, hlook]
  | false =>
      have hlook : stack.look.color = .default := look_color_eq_default.2 hcolor
      have hnone : hasColor (emphasisTag :: stack) = false := by
        simpa [hasColor, Color.isTag] using hcolor
      simp [levels, Levels.toggle, hunder, underColors_eq_self hnone, look_emphasisTag, hlook]

theorem levels_colorTag (stack : TagStack) {color : Color} {tag : String}
    (h : color.tag? = some tag) : levels (tag :: stack) = stack.levels.paint color := by
  have hbold : underBold (tag :: stack) = stack.underBold := if_neg (Color.tag?_ne_boldTag h)
  have htag : hasColor (tag :: stack) = true := by
    simp [hasColor, Color.isTag, Color.ofTag?_tag h]
  have hcolors : underColors (tag :: stack) = stack.underColors := if_pos htag
  simp [levels, Levels.paint, hbold, hcolors, look_colorTag stack h]

theorem levels_underColors {stack : TagStack} (honce : boldTag ∉ stack.underBold) :
    stack.underColors.levels = stack.levels.unpaint := by
  have hcolors : stack.underColors.underColors = stack.underColors :=
    underColors_eq_self (hasColor_underColors stack)
  cases hbold : stack.underColors.look.bold with
  | true =>
      have hunder := underBold_underColors honce (look_bold.1 hbold)
      simp [levels, Levels.unpaint, hcolors, hunder, hbold]
  | false =>
      have hnone : boldTag ∉ stack.underColors := by
        intro hmem
        simp [look_bold.2 hmem] at hbold
      simp [levels, Levels.unpaint, hcolors, underBold_eq_nil hnone, hbold]

/-- While the levels fit they are enough to follow the stack. -/
theorem levels_turn {before : Style} {stack : TagStack} (h : stack.levels.Fits before.look)
    (after : Style) :
    (turn before after stack).levels = stack.levels.turn before.look after.look := by
  have honce {stack : TagStack} {look : Look} (hfits : stack.levels.Fits look) :
      boldTag ∉ stack.underBold := by
    intro hmem
    have htwice := look_bold.2 hmem
    exact absurd (hfits.once.symm.trans htwice) (by simp)
  have hbold : (turnBold before after stack).levels =
      Levels.turnBold before.look after.look stack.levels := by
    by_cases hsame : before.bold = after.bold
    · simp [turnBold, Levels.turnBold, Style.look, hsame]
    · cases hon : after.bold with
      | true => simp_all [turnBold, Levels.turnBold, Style.look, levels_boldTag]
      | false => simp_all [turnBold, Levels.turnBold, Style.look, levels_underBold (honce h)]
  have hemphasis (stack : TagStack) : (turnEmphasis before after stack).levels =
      Levels.turnEmphasis before.look after.look stack.levels := by
    by_cases hsame : before.emphasis = after.emphasis
    · simp [turnEmphasis, Levels.turnEmphasis, Style.look, hsame]
    · simp [turnEmphasis, Levels.turnEmphasis, Style.look, hsame, levels_emphasisTag]
  have hmiddle := (h.turnBold after.look).turnEmphasis before.look after.look rfl
  rw [← hbold, ← hemphasis] at hmiddle
  rw [turn, Levels.turn, ← hbold, ← hemphasis]
  by_cases hsame : before.color = after.color
  · simp [turnColor, Levels.turnColor, Style.look, hsame]
  · cases htag : after.color.tag? with
    | some tag =>
        have hcolor : after.color ≠ .default := by
          intro hdefault
          simp [hdefault, Color.tag?] at htag
        simp [turnColor, Levels.turnColor, Style.look, hsame, htag, hcolor, levels_colorTag _ htag]
    | none =>
        have hcolor : after.color = .default := Color.tag?_eq_none.1 htag
        rw [hcolor] at hsame
        simp [turnColor, Levels.turnColor, Style.look, hsame, hcolor, Color.tag?,
          levels_underColors (honce hmiddle)]

end TagStack

/-- Styles that tags stand for are told apart by their looks. -/
theorem Style.IsTagged.eq_of_look {a b : Style} (ha : a.IsTagged) (hb : b.IsTagged)
    (h : a.look = b.look) : a = b := by
  have hbold : a.bold = b.bold := congrArg Look.bold h
  have hemphasis : a.emphasis = b.emphasis := congrArg Look.emphasis h
  have hcolor : a.color = b.color := congrArg Look.color h
  rw [ha, hb, hbold, hemphasis, hcolor]

theorem TagStack.shown_eq_iff_look {stack : TagStack} {style : Style} (h : style.IsTagged) :
    stack.shown = style ↔ stack.levels.top = style.look := by
  constructor
  · rintro rfl
    rfl
  · exact fun hlook => (isTagged_shown stack).eq_of_look h hlook

namespace Writer

def look (writer : Writer) : Look := writer.style.look

def levels (writer : Writer) : Levels := writer.openTags.levels

/-- At every run, literal or not, the levels fit the style: a run without edits asks for
the bold and the color of the run before it. -/
theorem fits_advance {writer : Writer} (h : writer.levels.Fits writer.look) (run : Run) :
    (writer.advance run).levels.Fits run.style.look := by
  unfold levels advance edits
  split
  · rename_i halike
    obtain ⟨hbold, hcolor⟩ := Style.look_of_alike halike
    exact h.congr hbold hcolor
  · rw [TagStack.editAll_edits, TagStack.levels_turn h]
    exact h.turn run.style.look

theorem fits_advanceAll {writer : Writer} (h : writer.levels.Fits writer.look)
    (document : Document) :
    (writer.advanceAll document).levels.Fits (writer.advanceAll document).look := by
  induction document generalizing writer with
  | nil => exact h
  | cons run rest ih => exact ih (fits_advance h run)

/-- What a writer of running text keeps up from run to run. -/
structure IsSound (writer : Writer) : Prop where
  running : writer.style.literal = false
  fits : writer.levels.Fits writer.look

theorem isSound_start : start.IsSound := ⟨rfl, Levels.fits_outermost⟩

/-- Running styles that are alike are equal, and the edits between equal styles are
none: so the levels turn at every run. -/
theorem levels_advance {writer : Writer} (h : writer.IsSound) {run : Run}
    (hrun : run.style.literal = false) :
    (writer.advance run).levels = writer.levels.turn writer.look run.style.look := by
  have hturn := TagStack.levels_turn h.fits run.style
  rw [← TagStack.editAll_edits] at hturn
  unfold levels advance edits
  split
  · rename_i halike
    have hstyle := (Style.alike_iff_eq h.running hrun).1 halike
    rw [look, hstyle, Levels.turn_self]
    rfl
  · exact hturn

theorem IsSound.advance {writer : Writer} (h : writer.IsSound) {run : Run}
    (hrun : run.style.literal = false) : (writer.advance run).IsSound :=
  ⟨hrun, fits_advance h.fits run⟩

theorem IsSound.advanceAll {writer : Writer} (h : writer.IsSound) {document : Document}
    (hrunning : ∀ run ∈ document, run.style.literal = false) :
    (writer.advanceAll document).IsSound := by
  induction document generalizing writer with
  | nil => exact h
  | cons run rest ih =>
      have hrun := h.advance (hrunning run List.mem_cons_self)
      exact ih hrun fun other hother => hrunning other (List.mem_cons_of_mem _ hother)

end Writer

end StyledMarkup
