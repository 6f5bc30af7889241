import StyledMarkup.Proofs.LevelTurns

/-!
# Bold and color apart from emphasis

Emphasis never decides which tags are closed. So the bold and the color that the
open tags stand for, with the color outside bold, change by rules of their own.

These rules are their own fixed point: a writer that follows what another has
shown, instead of what that one was to show, comes to the same bold and colors.
-/
namespace StyledMarkup

structure Frame where
  bold : Bool
  color : Color
  /-- The color outside the innermost `B`. -/
  outside : Color
  deriving DecidableEq, Repr

def Levels.frame (levels : Levels) : Frame :=
  ⟨levels.top.bold, levels.top.color, levels.underBold.color⟩

namespace Frame

def turnBold (before after : Look) (frame : Frame) : Frame :=
  if before.bold = after.bold then frame
  else if after.bold then ⟨true, frame.color, frame.color⟩
  else ⟨false, frame.outside, .default⟩

def turnColor (before after : Look) (frame : Frame) : Frame :=
  if before.color = after.color then frame
  else if after.color = .default then
    ⟨if frame.outside = .default then frame.bold else false, .default, .default⟩
  else { frame with color := after.color }

def turn (before after : Look) (frame : Frame) : Frame :=
  turnColor before after (turnBold before after frame)

/-- A frame whose writer is in the given look. Under bold the color is the one asked
for or else that outside: a color that was closed was opened within bold. -/
structure Fits (frame : Frame) (look : Look) : Prop where
  bold : frame.bold = true → look.bold = true
  color : frame.color ≠ .default → look.color ≠ .default
  noBold : frame.bold = false → frame.outside = .default
  noColor : frame.color = .default → frame.outside = .default
  choice : frame.bold = true → frame.color = look.color ∨ frame.color = frame.outside

theorem Fits.turnBold {frame : Frame} {before : Look} (h : frame.Fits before) (after : Look) :
    (frame.turnBold before after).Fits { before with bold := after.bold } := by
  obtain ⟨hbold, hcolor, hnoBold, hnoColor, hchoice⟩ := h
  unfold Frame.turnBold
  split
  · constructor <;> simp_all
  · split
    · constructor <;> simp_all
    · constructor <;> simp_all
      grind

theorem Fits.turnColor {frame : Frame} {look : Look} (h : frame.Fits look)
    (before after : Look) (hlook : look.color = before.color) :
    (frame.turnColor before after).Fits { look with color := after.color } := by
  obtain ⟨hbold, hcolor, hnoBold, hnoColor, hchoice⟩ := h
  unfold Frame.turnColor
  split
  · constructor <;> simp_all
  · split
    · constructor <;> simp_all
    · constructor <;> simp_all

theorem Fits.turn {frame : Frame} {before : Look} (h : frame.Fits before) (after : Look) :
    (frame.turn before after).Fits after := by
  obtain ⟨hbold, hcolor, hnoBold, hnoColor, hchoice⟩ :=
    (h.turnBold after).turnColor before after rfl
  exact ⟨hbold, hcolor, hnoBold, hnoColor, hchoice⟩

/-- Following what is shown leads to the same frame as following what was asked for. -/
theorem turn_shown {frame : Frame} {before after : Look} (h : frame.Fits before)
    {shown next : Look} (hbold : shown.bold = frame.bold) (hcolor : shown.color = frame.color)
    (hnextBold : next.bold = (frame.turn before after).bold)
    (hnextColor : next.color = (frame.turn before after).color) :
    frame.turn shown next = frame.turn before after := by
  obtain ⟨hb, hc, hnoBold, hnoColor, hchoice⟩ := h
  obtain ⟨bold, color, outside⟩ := frame
  dsimp only at *
  unfold turn turnBold turnColor at *
  by_cases hsame : before.bold = after.bold
  · rw [if_pos hsame] at *
    grind
  · cases hafter : after.bold with
    | true =>
        -- Bold was off in both, and is opened where the color is the same.
        have hoff : bold = false := by grind
        subst hoff
        grind
    | false =>
        -- If bold had been lost before, then there was no color outside it.
        cases bold with
        | false => grind
        | true => grind

end Frame

namespace Levels

theorem frame_turnBold {levels : Levels} {before : Look} (h : levels.Fits before) (after : Look) :
    (levels.turnBold before after).frame = levels.frame.turnBold before after := by
  have honce := h.once
  unfold turnBold Frame.turnBold
  split_ifs with hsame hafter
  · rfl
  · rfl
  · simp [boldOff, frame, honce]

theorem frame_turnEmphasis (before after : Look) (levels : Levels) :
    (levels.turnEmphasis before after).frame = levels.frame := by
  unfold turnEmphasis
  split
  · rfl
  · rfl

theorem frame_turnColor {levels : Levels} {look : Look} (h : levels.Fits look)
    (before after : Look) :
    (levels.turnColor before after).frame = levels.frame.turnColor before after := by
  have hcolorless := h.colorless
  have hmeets : levels.underColors.bold =
      if levels.underBold.color = .default then levels.top.bold else false := by
    rw [Bool.eq_iff_iff, h.boldOutside]
    split <;> simp [*]
  have houtside : (if levels.underColors.bold then levels.underBold else {}).color =
      .default := by
    cases hbold : levels.underColors.bold with
    | false => rfl
    | true => exact (h.boldOutside.1 hbold).2
  have hunpaint : levels.unpaint.frame =
      ⟨if levels.frame.outside = .default then levels.frame.bold else false, .default,
        .default⟩ := by
    rw [unpaint, frame, houtside, hcolorless, hmeets]
    rfl
  unfold turnColor Frame.turnColor
  by_cases hsame : before.color = after.color
  · rw [if_pos hsame, if_pos hsame]
  · by_cases hafter : after.color = .default
    · rw [if_neg hsame, if_neg hsame, if_pos hafter, if_pos hafter, hunpaint]
    · rw [if_neg hsame, if_neg hsame, if_neg hafter, if_neg hafter]
      rfl

theorem frame_turn {levels : Levels} {before : Look} (h : levels.Fits before) (after : Look) :
    (levels.turn before after).frame = levels.frame.turn before after := by
  have hmiddle := (h.turnBold after).turnEmphasis before after rfl
  rw [turn, frame_turnColor hmiddle, frame_turnEmphasis, frame_turnBold h]
  rfl

end Levels

end StyledMarkup
