import Mathlib.Data.List.Infix
import StyledMarkup.Proofs.OpenTags

/-!
# Three levels of a tag stack

What the edits between two styles make of a stack depends on little of it: on the
look at the top, on the look outside the innermost `B`, and on the look outside
all colors. Turning bold off goes back to the second, returning to the default
color goes back to the third. These three looks change by rules of their own, so
that the edits can be followed without the stack, as long as no `B` is inside
another.
-/
namespace StyledMarkup

/-- The attributes that tags are written for. -/
@[ext] structure Look where
  bold : Bool := false
  emphasis : Bool := false
  color : Color := .default
  deriving DecidableEq, Repr

def Style.look (style : Style) : Look := ⟨style.bold, style.emphasis, style.color⟩

/-- Only emphasis can tell styles apart that are alike. -/
theorem Style.look_of_alike {a b : Style} (h : a.alike b = true) :
    b.look.bold = a.look.bold ∧ b.look.color = a.look.color := by
  rw [alike_eq] at h
  simp_all [look]

structure Levels where
  top : Look
  underBold : Look
  underColors : Look
  deriving DecidableEq, Repr

namespace TagStack

def look (stack : TagStack) : Look := stack.shown.look

theorem look_bold {stack : TagStack} : stack.look.bold = true ↔ boldTag ∈ stack := by
  simp [look, Style.look, shown]

@[simp] theorem look_nil : look [] = {} := rfl

theorem look_boldTag (stack : TagStack) :
    look (boldTag :: stack) = { stack.look with bold := true } := by
  rw [look, shown_boldTag]
  rfl

theorem look_emphasisTag (stack : TagStack) :
    look (emphasisTag :: stack) = { stack.look with emphasis := !stack.look.emphasis } := by
  rw [look, shown_emphasisTag]
  rfl

theorem look_colorTag (stack : TagStack) {color : Color} {tag : String}
    (h : color.tag? = some tag) : look (tag :: stack) = { stack.look with color := color } := by
  rw [look, shown_colorTag stack h]
  rfl

theorem hasColor_iff_look {stack : TagStack} :
    stack.hasColor = true ↔ stack.look.color ≠ .default := hasColor_iff

theorem hasColor_of_suffix {outer stack : TagStack} (h : outer <:+ stack)
    (hcolor : outer.hasColor = true) : stack.hasColor = true := by
  rw [hasColor, List.any_eq_true] at hcolor ⊢
  obtain ⟨name, hname, htag⟩ := hcolor
  exact ⟨name, h.subset hname, htag⟩

theorem underBold_suffix (stack : TagStack) : stack.underBold <:+ stack := by
  rw [← drop_throughBold]
  exact List.drop_suffix _ _

theorem underColors_suffix (stack : TagStack) : stack.underColors <:+ stack := by
  rw [← drop_throughColors]
  exact List.drop_suffix _ _

theorem underBold_eq_nil {stack : TagStack} (h : boldTag ∉ stack) : stack.underBold = [] := by
  induction stack with
  | nil => rfl
  | cons name rest ih =>
      rw [List.mem_cons, not_or] at h
      rw [underBold, if_neg (Ne.symm h.1), ih h.2]

theorem underColors_eq_self {stack : TagStack} (h : stack.hasColor = false) :
    stack.underColors = stack := by
  cases stack with
  | nil => rfl
  | cons name rest => rw [underColors, if_neg (by simp [h])]

theorem underColors_cons {stack : TagStack} (h : stack.hasColor = true) (name : String) :
    underColors (name :: stack) = stack.underColors := by
  rw [underColors, if_pos (hasColor_of_suffix (List.suffix_cons name stack) h)]

theorem hasColor_underColors (stack : TagStack) : stack.underColors.hasColor = false := by
  induction stack with
  | nil => rfl
  | cons name rest ih =>
      unfold underColors
      split
      · exact ih
      · simpa using ‹¬hasColor (name :: rest) = true›

/-- Colors that were opened before bold take bold with them when they are closed. -/
theorem underColors_of_hasColor_underBold {stack : TagStack}
    (h : stack.underBold.hasColor = true) : stack.underColors = stack.underBold.underColors := by
  induction stack with
  | nil => rfl
  | cons name rest ih =>
      unfold underBold at h ⊢
      split at h
      · exact (underColors_cons h name).trans (by simp [*])
      · have hrest := hasColor_of_suffix (underBold_suffix rest) h
        rw [underColors_cons hrest, if_neg ‹_›, ih h]

/-- With bold they leave what stands outside of it as it is. -/
theorem underBold_underColors {stack : TagStack} (honce : boldTag ∉ stack.underBold)
    (h : boldTag ∈ stack.underColors) : stack.underColors.underBold = stack.underBold := by
  induction stack with
  | nil => rfl
  | cons name rest ih =>
      cases hcolor : hasColor (name :: rest) with
      | false => rw [underColors_eq_self hcolor]
      | true =>
          rw [underColors, if_pos hcolor] at h ⊢
          unfold underBold at honce
          split at honce
          · exact absurd ((underColors_suffix rest).subset h) honce
          · rw [ih honce h, underBold, if_neg ‹_›]

def levels (stack : TagStack) : Levels :=
  ⟨stack.look, stack.underBold.look, stack.underColors.look⟩

end TagStack

end StyledMarkup
