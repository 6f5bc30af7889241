import Mathlib.Data.List.DropRight
import StyledMarkup.Proofs.TagLevels

/-!
# Transitions in closed form

A transition between two styles takes the stack of open tags through three more
stacks, one for each attribute that tags are written for. What these stacks are
can be said without the loops that close tags: bold goes back to the names outside
the innermost `B`, the default color to the outermost names as long as none of
them is a color. The edits are then the ways from each stack to the next.

Nothing is asked of the stack. It may hold names that a writer never opens, and it
need not stand for the style that is left; without a `B` everything is closed, and
without a color nothing is.
-/
namespace StyledMarkup.TagStack

/-- The names of a stack inside an outer part of it, the innermost first. -/
def inside (stack outer : TagStack) : List String := stack.take (stack.length - outer.length)

@[simp] theorem inside_self (stack : TagStack) : stack.inside stack = [] := by
  simp [inside]

@[simp] theorem inside_append (names outer : TagStack) : inside (names ++ outer) outer = names := by
  simp [inside]

theorem inside_of_suffix {stack outer : TagStack} (h : outer <:+ stack) :
    outer.inside stack = [] := by
  simp [inside, Nat.sub_eq_zero_of_le h.length_le]

/-- The way from a stack to another when one of them is an outer part of the other: closes
what is only in the first, from the inside, then opens what is only in the second, from the
outside. -/
def way (stack next : TagStack) : List TagEdit :=
  (stack.inside next).map .closes ++ (next.inside stack).reverse.map .opens

@[simp] theorem way_self (stack : TagStack) : stack.way stack = [] := by
  simp [way]

theorem way_append (names outer : TagStack) :
    way (names ++ outer) outer = names.map .closes := by
  rw [way, inside_append, inside_of_suffix (List.suffix_append names outer)]
  simp

theorem way_to_append (names outer : TagStack) :
    way outer (names ++ outer) = names.reverse.map .opens := by
  rw [way, inside_append, inside_of_suffix (List.suffix_append names outer)]
  simp

theorem way_cons (name : String) (stack : TagStack) : stack.way (name :: stack) = [.opens name] :=
  way_to_append [name] stack

theorem throughBold_append_underBold (stack : TagStack) :
    stack.throughBold ++ stack.underBold = stack := by
  rw [← drop_throughBold]
  exact List.prefix_iff_eq_append.1 <| throughBold_prefix stack

theorem throughColors_append_underColors (stack : TagStack) :
    stack.throughColors ++ stack.underColors = stack := by
  rw [← drop_throughColors]
  exact List.prefix_iff_eq_append.1 <| throughColors_prefix stack

theorem way_underBold (stack : TagStack) :
    stack.way stack.underBold = stack.throughBold.map .closes := by
  have hway := way_append stack.throughBold stack.underBold
  rwa [throughBold_append_underBold] at hway

theorem way_underColors (stack : TagStack) :
    stack.way stack.underColors = stack.throughColors.map .closes := by
  have hway := way_append stack.throughColors stack.underColors
  rwa [throughColors_append_underColors] at hway

theorem boldEdits_eq_way (before after : Style) (stack : TagStack) :
    boldEdits before after stack = stack.way (turnBold before after stack) := by
  unfold boldEdits turnBold
  split
  · exact (way_self stack).symm
  · split
    · exact (way_cons boldTag stack).symm
    · exact (way_underBold stack).symm

theorem emphasisEdits_eq_way (before after : Style) (stack : TagStack) :
    emphasisEdits before after = stack.way (turnEmphasis before after stack) := by
  unfold emphasisEdits turnEmphasis
  split
  · exact (way_self stack).symm
  · exact (way_cons emphasisTag stack).symm

theorem colorEdits_eq_way (before after : Style) (stack : TagStack) :
    colorEdits before after stack = stack.way (turnColor before after stack) := by
  unfold colorEdits turnColor
  split
  · exact (way_self stack).symm
  · cases after.color.tag? with
    | some tag => exact (way_cons tag stack).symm
    | none => exact (way_underColors stack).symm

/-- The edits of a transition are the ways from each of four stacks to the next. -/
theorem edits_eq_ways (before after : Style) (stack : TagStack) :
    edits before after stack =
      stack.way (turnBold before after stack) ++
        (turnBold before after stack).way
          (turnEmphasis before after (turnBold before after stack)) ++
        (turnEmphasis before after (turnBold before after stack)).way (turn before after stack) := by
  rw [edits, editAll_boldEdits, editAll_emphasisEdits, boldEdits_eq_way,
    emphasisEdits_eq_way before after (turnBold before after stack), colorEdits_eq_way]
  rfl

/-- Going back outside bold stops at the innermost `B`. -/
theorem underBold_eq_tail_dropWhile (stack : TagStack) :
    stack.underBold = (stack.dropWhile fun name => name != boldTag).tail := by
  induction stack with
  | nil => rfl
  | cons name rest ih =>
      rw [underBold, List.dropWhile_cons]
      by_cases hname : name = boldTag
      · simp [hname]
      · simp [hname, ih]

theorem underColors_concat (stack : TagStack) (name : String) :
    underColors (stack ++ [name]) = if Color.isTag name then [] else stack.underColors ++ [name] := by
  induction stack with
  | nil => cases htag : Color.isTag name <;> simp [underColors, hasColor, htag]
  | cons inner rest ih =>
      have hcolor : hasColor (inner :: (rest ++ [name])) =
          (hasColor (inner :: rest) || Color.isTag name) := by
        simp [hasColor, Bool.or_assoc]
      rw [List.cons_append, underColors, ih, hcolor, underColors]
      cases htag : Color.isTag name with
      | true => simp
      | false => cases hinner : hasColor (inner :: rest) <;> simp

/-- Going back outside all colors stops at the outermost one. -/
theorem underColors_eq_rtakeWhile (stack : TagStack) :
    stack.underColors = stack.rtakeWhile fun name => !Color.isTag name := by
  -- From the outside, since this is the end at which the names are kept.
  induction stack using List.reverseRecOn with
  | nil => rfl
  | append_singleton stack name ih =>
      rw [underColors_concat, List.rtakeWhile_concat, ih]
      cases Color.isTag name <;> rfl

/-- A transition in closed form, on any stack: what is open behind it, and that its edits are
the ways from each of the four stacks to the next. -/
theorem edits_closed_form (before after : Style) (stack : TagStack) :
    let bold : TagStack :=
      if before.bold = after.bold then stack
      else if after.bold then boldTag :: stack
      else (stack.dropWhile fun name => name != boldTag).tail
    let emphasis : TagStack :=
      if before.emphasis = after.emphasis then bold else emphasisTag :: bold
    let color : TagStack :=
      if before.color = after.color then emphasis
      else
        match after.color.tag? with
        | some tag => tag :: emphasis
        | none => emphasis.rtakeWhile fun name => !Color.isTag name
    stack.editAll (edits before after stack) = color ∧
      edits before after stack = stack.way bold ++ bold.way emphasis ++ emphasis.way color ∧
      cost before after stack =
        (stack.way bold).length + (bold.way emphasis).length + (emphasis.way color).length := by
  intro bold emphasis color
  have hbold : turnBold before after stack = bold := by
    rw [turnBold, underBold_eq_tail_dropWhile]
  have hemphasis : turnEmphasis before after bold = emphasis := rfl
  have hcolor : turnColor before after emphasis = color := by
    by_cases hsame : before.color = after.color
    · simp [turnColor, color, hsame]
    · cases htag : after.color.tag? <;>
        simp [turnColor, color, hsame, htag, underColors_eq_rtakeWhile]
  have hedits : edits before after stack =
      stack.way bold ++ bold.way emphasis ++ emphasis.way color := by
    rw [edits_eq_ways, turn, hbold, hemphasis, hcolor]
  refine ⟨?_, hedits, ?_⟩
  · rw [editAll_edits, turn, hbold, hemphasis, hcolor]
  · rw [cost, hedits, List.length_append, List.length_append]

/-- Closing colors may close the `Em` that the same transition has just opened. -/
example :
    edits { bold := true, color := .red } { bold := true, emphasis := true } ["B", "r", "x"] =
      [.opens "Em", .closes "Em", .closes "B", .closes "r"] := by
  decide

end StyledMarkup.TagStack
