import StyledMarkup.Proofs.TagLevels

/-!
# Shortest transitions

Each name on a stack of open tags has a part in one attribute of the look at most. So one
tag, be it opened or closed, changes the look in one attribute at most, and a way from one
look to another takes at least as many tags as the two have attributes that differ. It does
not help to go deep into the stack first and to open again what was closed there.

A transition that neither turns bold off nor goes back to the default color is as short as
that: it opens one tag for each attribute that differs. Nothing is asked of the stack but
that it has the look which is left. The other transitions close tags for other attributes
on their way, so they may be longer, and may miss the look that they are to reach.
-/
namespace StyledMarkup

namespace Look

/-- How far two values of an attribute are apart. -/
def apart {α : Type} [DecidableEq α] (a b : α) : Nat := if a = b then 0 else 1

section Apart

variable {α : Type} [DecidableEq α]

@[simp] theorem apart_self (a : α) : apart a a = 0 := if_pos rfl

theorem apart_comm (a b : α) : apart a b = apart b a := by
  simp only [apart, eq_comm]

theorem apart_le_one (a b : α) : apart a b ≤ 1 := by
  unfold apart
  split <;> omega

theorem apart_triangle (a b c : α) : apart a c ≤ apart a b + apart b c := by
  by_cases hfirst : a = b
  · rw [hfirst]
    omega
  · have hone : apart a b = 1 := if_neg hfirst
    have hle := apart_le_one a c
    omega

end Apart

/-- The number of attributes in which two looks differ. -/
def distance (a b : Look) : Nat :=
  apart a.bold b.bold + apart a.emphasis b.emphasis + apart a.color b.color

@[simp] theorem distance_self (look : Look) : look.distance look = 0 := by
  simp [distance]

theorem distance_comm (a b : Look) : a.distance b = b.distance a := by
  simp only [distance, apart_comm]

theorem distance_triangle (a b c : Look) : a.distance c ≤ a.distance b + b.distance c := by
  have hbold := apart_triangle a.bold b.bold c.bold
  have hemphasis := apart_triangle a.emphasis b.emphasis c.emphasis
  have hcolor := apart_triangle a.color b.color c.color
  unfold distance
  omega

end Look

namespace TagStack

open Look (apart apart_le_one)

/-- A name that is put on a stack changes one attribute at most, whatever name it is. -/
theorem distance_look_cons (name : String) (stack : TagStack) :
    stack.look.distance (look (name :: stack)) ≤ 1 := by
  by_cases hbold : name = boldTag
  · rw [hbold, look_boldTag]
    simpa [Look.distance] using apart_le_one stack.look.bold true
  by_cases hemphasis : name = emphasisTag
  · rw [hemphasis, look_emphasisTag]
    simpa [Look.distance] using apart_le_one stack.look.emphasis (!stack.look.emphasis)
  cases hcolor : Color.ofTag? name with
  | some color =>
      rw [look_colorTag stack (Color.tag?_of_ofTag? hcolor)]
      simpa [Look.distance] using apart_le_one stack.look.color color
  | none =>
      have hsame : look (name :: stack) = stack.look := by
        simp [look, Style.look, shown, topColor, Ne.symm hbold, hemphasis, hcolor]
      rw [hsame, Look.distance_self]
      omega

/-- To close the innermost tag is to undo what opening it did. -/
theorem distance_look_edit (stack : TagStack) (edit : TagEdit) :
    stack.look.distance (stack.edit edit).look ≤ 1 := by
  cases edit with
  | opens name => exact distance_look_cons name stack
  | closes name =>
      cases stack with
      | nil => simp [TagStack.edit]
      | cons inner rest =>
          rw [Look.distance_comm]
          exact distance_look_cons inner rest

/-- No edits lead further than there are edits. -/
theorem distance_look_editAll (stack : TagStack) (path : List TagEdit) :
    stack.look.distance (stack.editAll path).look ≤ path.length := by
  induction path generalizing stack with
  | nil => simp
  | cons edit path ih =>
      have hstep := distance_look_edit stack edit
      have hrest := ih (stack.edit edit)
      have hboth := Look.distance_triangle stack.look (stack.edit edit).look
        ((stack.edit edit).editAll path).look
      rw [List.length_cons]
      change stack.look.distance ((stack.edit edit).editAll path).look ≤ path.length + 1
      omega

section Opens

variable {before after : Style} {stack : TagStack}

theorem bold_of_change (hchange : before.bold ≠ after.bold)
    (h : before.bold = true → after.bold = true) : after.bold = true := by
  cases hbefore : before.bold with
  | true => exact h hbefore
  | false => simpa [hbefore] using hchange

theorem exists_tag_of_change (hchange : before.color ≠ after.color)
    (h : after.color = .default → before.color = .default) :
    ∃ tag, after.color.tag? = some tag := by
  apply Option.ne_none_iff_exists'.1
  intro hnone
  have hdefault := Color.tag?_eq_none.1 hnone
  exact hchange ((h hdefault).trans hdefault.symm)

theorem look_turnBold (hlook : stack.look.bold = before.bold)
    (h : before.bold = true → after.bold = true) :
    (turnBold before after stack).look = { stack.look with bold := after.bold } := by
  by_cases hsame : before.bold = after.bold
  · rw [turnBold, if_pos hsame, ← hsame, ← hlook]
  · have hon := bold_of_change hsame h
    rw [turnBold, if_neg hsame, if_pos hon, look_boldTag, hon]

theorem look_turnEmphasis (hlook : stack.look.emphasis = before.emphasis) :
    (turnEmphasis before after stack).look = { stack.look with emphasis := after.emphasis } := by
  by_cases hsame : before.emphasis = after.emphasis
  · rw [turnEmphasis, if_pos hsame, ← hsame, ← hlook]
  · have hturned : (!before.emphasis) = after.emphasis := Bool.not_eq.2 hsame
    rw [turnEmphasis, if_neg hsame, look_emphasisTag, hlook, hturned]

theorem look_turnColor (hlook : stack.look.color = before.color)
    (h : after.color = .default → before.color = .default) :
    (turnColor before after stack).look = { stack.look with color := after.color } := by
  by_cases hsame : before.color = after.color
  · rw [turnColor, if_pos hsame, ← hsame, ← hlook]
  · obtain ⟨tag, htag⟩ := exists_tag_of_change hsame h
    rw [turnColor, if_neg hsame, htag]
    exact look_colorTag stack htag

/-- A transition that neither ends bold nor a color reaches the look that it is to reach, from
any stack that has the look which is left. -/
theorem look_turn (hlook : stack.look = before.look)
    (hbold : before.bold = true → after.bold = true)
    (hcolor : after.color = .default → before.color = .default) :
    (turn before after stack).look = after.look := by
  have hfirst := look_turnBold (congrArg Look.bold hlook) hbold
  have hsecond : (turnEmphasis before after (turnBold before after stack)).look =
      { stack.look with bold := after.bold, emphasis := after.emphasis } := by
    rw [look_turnEmphasis, hfirst]
    rw [hfirst, hlook]
    rfl
  rw [turn, look_turnColor _ hcolor, hsecond]
  · rfl
  · rw [hsecond, hlook]
    rfl

theorem length_boldEdits (h : before.bold = true → after.bold = true) :
    (boldEdits before after stack).length = apart before.bold after.bold := by
  by_cases hsame : before.bold = after.bold
  · simp [boldEdits, apart, hsame]
  · have hon := bold_of_change hsame h
    rw [boldEdits, apart, if_neg hsame, if_neg hsame, if_pos hon]
    rfl

theorem length_emphasisEdits :
    (emphasisEdits before after).length = apart before.emphasis after.emphasis := by
  unfold emphasisEdits apart
  split <;> rfl

theorem length_colorEdits (h : after.color = .default → before.color = .default) :
    (colorEdits before after stack).length = apart before.color after.color := by
  by_cases hsame : before.color = after.color
  · simp [colorEdits, apart, hsame]
  · obtain ⟨tag, htag⟩ := exists_tag_of_change hsame h
    rw [colorEdits, apart, if_neg hsame, if_neg hsame, htag]
    rfl

/-- A transition that neither turns bold off nor goes back to the default color, on a stack
that has the look which is left: it reaches the look that is wanted with one edit for each
attribute that changes, and no edits that reach this look are fewer. -/
theorem edits_shortest (hlook : stack.look = before.look)
    (hbold : before.bold = true → after.bold = true)
    (hcolor : after.color = .default → before.color = .default) :
    (stack.editAll (edits before after stack)).look = after.look ∧
      (edits before after stack).length = before.look.distance after.look ∧
      ∀ path : List TagEdit, (stack.editAll path).look = after.look →
        (edits before after stack).length ≤ path.length := by
  have hlength : (edits before after stack).length = before.look.distance after.look := by
    rw [edits, List.length_append, List.length_append, length_boldEdits hbold,
      length_emphasisEdits, length_colorEdits hcolor]
    rfl
  refine ⟨?_, hlength, ?_⟩
  · rw [editAll_edits]
    exact look_turn hlook hbold hcolor
  · intro path hpath
    have hbound := distance_look_editAll stack path
    rw [hlook, hpath] at hbound
    omega

end Opens

/-- Turning bold off closes an `Em` inside it, so it misses a look that keeps the emphasis. -/
example :
    editAll ["Em", "B"] (edits { bold := true, emphasis := true } { emphasis := true } ["Em", "B"]) =
      [] := by
  decide

/-- Bold inside bold, one color inside another, and `Em` twice, which is none. -/
def crowdedStack : TagStack := ["Em", "r", "B", "Em", "w", "B"]

/-- The emphasis could also be had by closing the innermost `Em`, but not in fewer edits. -/
theorem edits_shortest_crowdedStack :
    let before : Style := { bold := true, italic := true, color := .red }
    let after : Style := { bold := true, emphasis := true, size := 4, color := .blue }
    crowdedStack.look = before.look ∧
      (crowdedStack.editAll (edits before after crowdedStack)).look = after.look ∧
      (edits before after crowdedStack).length = 2 ∧
      (crowdedStack.editAll [.closes "Em", .opens "b"]).look = after.look ∧
      ∀ path : List TagEdit, (crowdedStack.editAll path).look = after.look → 2 ≤ path.length := by
  intro before after
  have hlook : crowdedStack.look = before.look := by decide
  have hcolor : after.color = .default → before.color = .default := by decide
  obtain ⟨hreached, hlength, hleast⟩ :=
    @edits_shortest before after crowdedStack hlook (fun _ => rfl) hcolor
  exact ⟨hlook, hreached, hlength, by decide, hleast⟩

end TagStack

end StyledMarkup
