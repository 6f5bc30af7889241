/-!
# Text colors

A style has one color: the default, or one of eight that a tag selects by its
letter. The default has no letter, so the only way back to it is to close the
tag that left it.
-/
namespace StyledMarkup

inductive Color where
  | default | white | red | green | blue | cyan | magenta | yellow | black
  deriving DecidableEq, Repr, Inhabited

namespace Color

/-- The colors that a tag selects, in the order of the vocabulary. -/
def selectable : List Color :=
  [white, red, green, blue, cyan, magenta, yellow, black]

/-- The tag that selects a color. -/
def tag? : Color → Option String
  | default => none
  | white => some "w"
  | red => some "r"
  | green => some "g"
  | blue => some "b"
  | cyan => some "c"
  | magenta => some "m"
  | yellow => some "y"
  | black => some "k"

/-- The color that a tag selects. -/
def ofTag? (tag : String) : Option Color :=
  selectable.find? fun color => color.tag? == some tag

def isTag (tag : String) : Bool := (ofTag? tag).isSome

/-- The capital letter that stands for the color in a style's short form. -/
def letter : Color → Char
  | default => '_'
  | white => 'W'
  | red => 'R'
  | green => 'G'
  | blue => 'B'
  | cyan => 'C'
  | magenta => 'M'
  | yellow => 'Y'
  | black => 'K'

/-- The name that stands for the color in a written document. -/
def name : Color → String
  | default => "default"
  | white => "white"
  | red => "red"
  | green => "green"
  | blue => "blue"
  | cyan => "cyan"
  | magenta => "magenta"
  | yellow => "yellow"
  | black => "black"

/-- Every color, the default first. -/
def all : List Color := default :: selectable

def ofName? (name : String) : Option Color :=
  all.find? fun color => color.name == name

theorem mem_all (color : Color) : color ∈ all := by
  cases color <;> decide

theorem ofTag?_tag {color : Color} {tag : String} (h : color.tag? = some tag) :
    ofTag? tag = some color := by
  cases color <;> simp only [tag?, Option.some.injEq, reduceCtorEq] at h <;> subst h <;> decide

theorem tag?_of_ofTag? {color : Color} {tag : String} (h : ofTag? tag = some color) :
    color.tag? = some tag := by
  simpa using List.find?_some h

theorem ofName?_name (color : Color) : ofName? color.name = some color := by
  cases color <;> decide

end Color

end StyledMarkup
