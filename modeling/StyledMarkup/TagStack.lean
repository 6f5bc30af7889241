import StyledMarkup.MarkupToken
import StyledMarkup.Style

/-!
# Open tags and the edits between styles

The writer of markup keeps the names of the tags that it has opened and not yet
closed, the innermost first. To go from one style to the next it opens tags or
closes them from the inside, attribute by attribute:

* bold is turned on by opening `B` and off by closing everything down to and
  including the innermost `B`;
* emphasis is a toggle, so every change of it opens `Em`;
* a color is turned on by opening its tag; to return to the default, tags are
  closed as long as a color is open.

What is closed on the way is not opened again, and the remaining attributes have
no tags here.
-/
namespace StyledMarkup

/-- One tag to write between two runs. -/
inductive TagEdit where
  | opens (name : String)
  | closes (name : String)
  deriving DecidableEq, Repr

namespace TagEdit

def token : TagEdit → Token
  | opens name => .opening name
  | closes name => .closing name

def isClose : TagEdit → Bool
  | opens _ => false
  | closes _ => true

/-- What stands between the brackets of the tag. -/
def body : TagEdit → String
  | opens name => name
  | closes name => "/" ++ name

def render (edit : TagEdit) : String := edit.token.render

end TagEdit

/-- The names of the open tags, the innermost first. -/
abbrev TagStack := List String

namespace TagStack

def boldTag : String := "B"

def emphasisTag : String := "Em"

def hasColor (stack : TagStack) : Bool := stack.any Color.isTag

/-- The names from the outermost to the innermost. -/
def listing (stack : TagStack) : String := "[" ++ ",".intercalate stack.reverse ++ "]"

def edit (stack : TagStack) : TagEdit → TagStack
  | .opens name => name :: stack
  | .closes _ => stack.tail

/-- The open tags when the edits are written. -/
def editAll (stack : TagStack) (edits : List TagEdit) : TagStack := edits.foldl edit stack

/-- The names down to and including the innermost `B`, or all of them. -/
def throughBold : TagStack → List String
  | [] => []
  | name :: rest => if name = boldTag then [name] else name :: throughBold rest

/-- The names down to and including the outermost color. -/
def throughColors : TagStack → List String
  | [] => []
  | name :: rest => if hasColor (name :: rest) then name :: throughColors rest else []

def boldEdits (before after : Style) (stack : TagStack) : List TagEdit :=
  if before.bold = after.bold then []
  else if after.bold then [.opens boldTag]
  else stack.throughBold.map .closes

def emphasisEdits (before after : Style) : List TagEdit :=
  if before.emphasis = after.emphasis then [] else [.opens emphasisTag]

def colorEdits (before after : Style) (stack : TagStack) : List TagEdit :=
  if before.color = after.color then []
  else
    match after.color.tag? with
    | some tag => [.opens tag]
    | none => stack.throughColors.map .closes

/-- The edits from one style to another: bold first, then emphasis, then color. -/
def edits (before after : Style) (stack : TagStack) : List TagEdit :=
  let bold := boldEdits before after stack
  let emphasis := emphasisEdits before after
  bold ++ emphasis ++ colorEdits before after ((stack.editAll bold).editAll emphasis)

/-- The number of tags that a transition writes. -/
def cost (before after : Style) (stack : TagStack) : Nat := (edits before after stack).length

@[simp] theorem editAll_nil (stack : TagStack) : stack.editAll [] = stack := rfl

@[simp] theorem editAll_append (stack : TagStack) (a b : List TagEdit) :
    stack.editAll (a ++ b) = (stack.editAll a).editAll b := List.foldl_append

/-- Closing as many tags as are given takes so many names from the inside. -/
theorem editAll_closes (stack : TagStack) (names : List String) :
    stack.editAll (names.map .closes) = stack.drop names.length := by
  induction names generalizing stack with
  | nil => rfl
  | cons name names ih =>
      have : stack.editAll ((name :: names).map .closes) =
          editAll stack.tail (names.map .closes) := rfl
      rw [this, ih]
      cases stack <;> simp

theorem throughBold_prefix (stack : TagStack) : stack.throughBold <+: stack := by
  induction stack with
  | nil => exact List.nil_prefix
  | cons name rest ih =>
      unfold throughBold
      split
      · exact List.prefix_append [name] rest
      · exact (List.prefix_cons_inj name).2 ih

theorem throughColors_prefix (stack : TagStack) : stack.throughColors <+: stack := by
  induction stack with
  | nil => exact List.nil_prefix
  | cons name rest ih =>
      unfold throughColors
      split
      · exact (List.prefix_cons_inj name).2 ih
      · exact List.nil_prefix

end TagStack

end StyledMarkup
