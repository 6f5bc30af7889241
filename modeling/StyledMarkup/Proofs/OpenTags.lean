import StyledMarkup.TagContent
import StyledMarkup.TagStack

/-!
# What open tags stand for

The names that a writer opens are `B`, `Em` and the color letters. A stack of
such names stands for one style: the style that is in force inside all of them,
the outermost applied first. It is bold if `B` is among the names, emphasised if
`Em` is there an odd number of times, and has the innermost color; every other
attribute is off.

The edits between two styles are restated here as what becomes of the stack. Bold
is turned off by going back to the names outside the innermost `B`, a color by
going back to the names outside all colors. Whatever else had been opened in
between is lost, and what is pushed in the same transition may be among it.
-/
namespace StyledMarkup

namespace Color

@[simp] theorem ofTag?_boldTag : ofTag? TagStack.boldTag = none := by decide

@[simp] theorem ofTag?_emphasisTag : ofTag? TagStack.emphasisTag = none := by decide

theorem tag?_ne_boldTag {color : Color} {tag : String} (h : color.tag? = some tag) :
    tag ≠ TagStack.boldTag := by
  rintro rfl
  simpa using ofTag?_tag h

theorem tag?_ne_emphasisTag {color : Color} {tag : String} (h : color.tag? = some tag) :
    tag ≠ TagStack.emphasisTag := by
  rintro rfl
  simpa using ofTag?_tag h

theorem tag?_eq_none {color : Color} : color.tag? = none ↔ color = .default := by
  cases color <;> simp [tag?]

theorem ofTag?_ne_default (tag : String) : ofTag? tag ≠ some .default := by
  intro h
  simpa [tag?] using tag?_of_ofTag? h

end Color

namespace Style

theorem apply_boldTag (style : Style) :
    style.apply TagStack.boldTag = .ok { style with bold := true } := by
  have h : TagContent.read TagStack.boldTag = .ok [.bold] := by cbv
  simp [apply, h, Except.map, Directive.act]

theorem apply_emphasisTag (style : Style) :
    style.apply TagStack.emphasisTag = .ok { style with emphasis := !style.emphasis } := by
  have h : TagContent.read TagStack.emphasisTag = .ok [.emphasis] := by cbv
  simp [apply, h, Except.map, Directive.act]

theorem apply_colorTag (style : Style) {color : Color} {tag : String}
    (h : color.tag? = some tag) : style.apply tag = .ok { style with color := color } := by
  have hread : TagContent.read tag = .ok [.color color] := by
    cases color <;> simp only [Color.tag?, Option.some.injEq, reduceCtorEq] at h <;> subst h <;> cbv
  simp [apply, hread, Except.map, Directive.act]

end Style

namespace TagStack

/-- The names that a writer opens. -/
def Writable (name : String) : Prop :=
  name = boldTag ∨ name = emphasisTag ∨ ∃ color : Color, color.tag? = some name

/-- The color in force, which the innermost color tag sets. -/
def topColor (stack : TagStack) : Color := (stack.findSome? Color.ofTag?).getD .default

/-- The style that the open tags stand for. -/
def shown (stack : TagStack) : Style :=
  { bold := decide (boldTag ∈ stack)
    emphasis := decide (stack.count emphasisTag % 2 = 1)
    color := stack.topColor }

/-- The style that is reached by applying the tags, the outermost first. -/
def denote : TagStack → Except UnknownTag Style
  | [] => .ok .initial
  | name :: rest => denote rest >>= fun style => style.apply name

@[simp] theorem shown_nil : shown [] = .initial := rfl

@[simp] theorem topColor_nil : topColor [] = .default := rfl

@[simp] theorem topColor_boldTag (stack : TagStack) :
    topColor (boldTag :: stack) = stack.topColor := by
  simp [topColor]

@[simp] theorem topColor_emphasisTag (stack : TagStack) :
    topColor (emphasisTag :: stack) = stack.topColor := by
  simp [topColor]

theorem topColor_colorTag (stack : TagStack) {color : Color} {tag : String}
    (h : color.tag? = some tag) : topColor (tag :: stack) = color := by
  simp [topColor, Color.ofTag?_tag h]

theorem shown_boldTag (stack : TagStack) :
    shown (boldTag :: stack) = { stack.shown with bold := true } := by
  have h : boldTag ≠ emphasisTag := by decide
  simp [shown, h]

theorem shown_emphasisTag (stack : TagStack) :
    shown (emphasisTag :: stack) = { stack.shown with emphasis := !stack.shown.emphasis } := by
  have h : boldTag ≠ emphasisTag := by decide
  have hparity : decide ((stack.count emphasisTag + 1) % 2 = 1) =
      !decide (stack.count emphasisTag % 2 = 1) := by
    rcases Nat.mod_two_eq_zero_or_one (stack.count emphasisTag) with h | h <;> simp [Nat.add_mod, h]
  simp [shown, h, hparity]

theorem shown_colorTag (stack : TagStack) {color : Color} {tag : String}
    (h : color.tag? = some tag) : shown (tag :: stack) = { stack.shown with color := color } := by
  simp [shown, topColor_colorTag stack h, (Color.tag?_ne_boldTag h).symm,
    Color.tag?_ne_emphasisTag h]

/-- A tag that a writer opens takes the style of the stack to that of the longer one. -/
theorem apply_shown {name : String} (h : Writable name) (stack : TagStack) :
    stack.shown.apply name = .ok (shown (name :: stack)) := by
  rcases h with rfl | rfl | ⟨color, hcolor⟩
  · rw [Style.apply_boldTag, shown_boldTag]
  · rw [Style.apply_emphasisTag, shown_emphasisTag]
  · rw [Style.apply_colorTag _ hcolor, shown_colorTag _ hcolor]

/-- The tags can be applied, and count as what they are said to stand for. -/
theorem denote_eq {stack : TagStack} (h : ∀ name ∈ stack, Writable name) :
    stack.denote = .ok stack.shown := by
  induction stack with
  | nil => rfl
  | cons name rest ih =>
      obtain ⟨hname, hrest⟩ := List.forall_mem_cons.1 h
      rw [denote, ih hrest]
      exact apply_shown hname rest

theorem hasColor_iff {stack : TagStack} : stack.hasColor = true ↔ stack.topColor ≠ .default := by
  induction stack with
  | nil => simp [hasColor]
  | cons name rest ih =>
      cases hname : Color.ofTag? name with
      | none => simpa [hasColor, topColor, Color.isTag, hname] using ih
      | some color =>
          have hne := Color.ofTag?_ne_default name
          rw [hname] at hne
          simpa [hasColor, topColor, Color.isTag, hname] using hne

/-- The names outside the innermost `B`; none if there is no `B`. -/
def underBold : TagStack → TagStack
  | [] => []
  | name :: rest => if name = boldTag then rest else underBold rest

/-- The names outside all colors. -/
def underColors : TagStack → TagStack
  | [] => []
  | name :: rest => if hasColor (name :: rest) then underColors rest else name :: rest

theorem drop_throughBold (stack : TagStack) :
    stack.drop stack.throughBold.length = stack.underBold := by
  induction stack with
  | nil => rfl
  | cons name rest ih =>
      unfold throughBold underBold
      split <;> simp [ih]

theorem drop_throughColors (stack : TagStack) :
    stack.drop stack.throughColors.length = stack.underColors := by
  induction stack with
  | nil => rfl
  | cons name rest ih =>
      unfold throughColors underColors
      split <;> simp [ih]

def turnBold (before after : Style) (stack : TagStack) : TagStack :=
  if before.bold = after.bold then stack
  else if after.bold then boldTag :: stack
  else stack.underBold

def turnEmphasis (before after : Style) (stack : TagStack) : TagStack :=
  if before.emphasis = after.emphasis then stack else emphasisTag :: stack

def turnColor (before after : Style) (stack : TagStack) : TagStack :=
  if before.color = after.color then stack
  else
    match after.color.tag? with
    | some tag => tag :: stack
    | none => stack.underColors

/-- The open tags behind the transition from one style to another. -/
def turn (before after : Style) (stack : TagStack) : TagStack :=
  turnColor before after (turnEmphasis before after (turnBold before after stack))

theorem editAll_boldEdits (before after : Style) (stack : TagStack) :
    stack.editAll (boldEdits before after stack) = turnBold before after stack := by
  unfold boldEdits turnBold
  split
  · rfl
  · split
    · rfl
    · rw [editAll_closes, drop_throughBold]

theorem editAll_emphasisEdits (before after : Style) (stack : TagStack) :
    stack.editAll (emphasisEdits before after) = turnEmphasis before after stack := by
  unfold emphasisEdits turnEmphasis
  split <;> rfl

theorem editAll_colorEdits (before after : Style) (stack : TagStack) :
    stack.editAll (colorEdits before after stack) = turnColor before after stack := by
  unfold colorEdits turnColor
  split
  · rfl
  · cases after.color.tag? with
    | some tag => rfl
    | none => exact (editAll_closes _ _).trans (drop_throughColors stack)

theorem editAll_edits (before after : Style) (stack : TagStack) :
    stack.editAll (edits before after stack) = turn before after stack := by
  simp only [edits, editAll_append, editAll_boldEdits, editAll_emphasisEdits, editAll_colorEdits,
    turn]

@[simp] theorem turn_self (style : Style) (stack : TagStack) : turn style style stack = stack := by
  simp [turn, turnBold, turnEmphasis, turnColor]

/-- Only the names that a writer opens are ever opened. -/
theorem writable_of_opens_mem {before after : Style} {stack : TagStack} {name : String}
    (h : .opens name ∈ edits before after stack) : Writable name := by
  simp only [edits, List.mem_append] at h
  rcases h with (h | h) | h
  · unfold boldEdits at h
    split at h
    · simp at h
    · split at h
      · exact .inl (by simpa using h)
      · simp at h
  · unfold emphasisEdits at h
    split at h
    · simp at h
    · exact .inr (.inl (by simpa using h))
  · unfold colorEdits at h
    split at h
    · simp at h
    · split at h
      · rename_i tag htag
        have hname : name = tag := by simpa using h
        exact .inr (.inr ⟨after.color, hname ▸ htag⟩)
      · simp at h

/-- A name on the stack was there before, or an edit has opened it. -/
theorem mem_editAll {edits : List TagEdit} {stack : TagStack} {name : String}
    (h : name ∈ stack.editAll edits) : name ∈ stack ∨ .opens name ∈ edits := by
  induction edits generalizing stack with
  | nil => exact .inl h
  | cons edit edits ih =>
      have hrest : name ∈ editAll (stack.edit edit) edits := h
      rcases ih hrest with h | h
      · cases edit with
        | opens opened =>
            rcases List.mem_cons.1 h with rfl | h
            · exact .inr List.mem_cons_self
            · exact .inl h
        | closes closed => exact .inl (List.mem_of_mem_tail h)
      · exact .inr (List.mem_cons_of_mem _ h)

theorem writable_of_closes_mem {before after : Style} {stack : TagStack}
    (h : ∀ name ∈ stack, Writable name) {name : String}
    (hname : .closes name ∈ edits before after stack) : Writable name := by
  have hopened : ∀ bold emphasis color : List TagEdit,
      edits before after stack = bold ++ emphasis ++ color →
        name ∈ (stack.editAll bold).editAll emphasis → Writable name := by
    intro bold emphasis color heq hmem
    rw [← editAll_append] at hmem
    rcases mem_editAll hmem with hmem | hmem
    · exact h name hmem
    · exact writable_of_opens_mem (heq ▸ List.mem_append_left color hmem)
  rw [edits, List.mem_append, List.mem_append] at hname
  rcases hname with (hname | hname) | hname
  · unfold boldEdits at hname
    split at hname
    · simp at hname
    · split at hname
      · simp at hname
      · have hclosed := throughBold_prefix stack
        exact h name (hclosed.subset (by simpa using hname))
  · unfold emphasisEdits at hname
    split at hname <;> simp at hname
  · unfold colorEdits at hname
    split at hname
    · simp at hname
    · split at hname
      · simp at hname
      · have hclosed := throughColors_prefix
          ((stack.editAll (boldEdits before after stack)).editAll (emphasisEdits before after))
        exact hopened _ _ _ rfl (hclosed.subset (by simpa using hname))

end TagStack

end StyledMarkup
