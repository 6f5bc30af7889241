import StyledMarkup.Color

/-!
# Styles

A style holds every attribute of a stretch of text. Tags move the underline
level between 0 and 3 and the size between 0 and 9; a document that was written
by other means may hold any value of a byte in either.

Two styles are alike when they agree in every attribute, emphasis apart if one
of them is literal: emphasis has no effect on literal text. Likeness decides
which runs are joined and where tags are written. It is kept apart from
equality, which compares every field.
-/
namespace StyledMarkup

structure Style where
  bold : Bool := false
  emphasis : Bool := false
  italic : Bool := false
  strike : Bool := false
  /-- Literal text is kept as it stands, white space included. -/
  literal : Bool := false
  underline : UInt8 := 0
  size : UInt8 := 0
  color : Color := .default
  deriving DecidableEq, Repr, Inhabited

namespace Style

/-- The style of text outside all tags. -/
def initial : Style := {}

/-- The underline level at which further requests have no effect. -/
def maxUnderline : UInt8 := 3

/-- The style without the attribute that literal text does not show. -/
def visible (style : Style) : Style :=
  if style.literal then { style with emphasis := false } else style

/-- Agreement in every attribute that the text shows. -/
def alike (a b : Style) : Bool := a.visible == b.visible

theorem alike_iff {a b : Style} : a.alike b = true ↔ a.visible = b.visible := by
  simp [alike]

theorem alike_refl (a : Style) : a.alike a = true := alike_iff.2 rfl

theorem alike_comm (a b : Style) : a.alike b = b.alike a := by
  rw [Bool.eq_iff_iff, alike_iff, alike_iff, eq_comm]

theorem alike_trans {a b c : Style} (h : a.alike b = true) (k : b.alike c = true) :
    a.alike c = true :=
  alike_iff.2 ((alike_iff.1 h).trans (alike_iff.1 k))

/-- Likeness, attribute by attribute: the literal attribute itself always counts. -/
theorem alike_eq (a b : Style) :
    a.alike b = (a.bold == b.bold && (a.literal || b.literal || a.emphasis == b.emphasis) &&
      a.italic == b.italic && a.strike == b.strike && a.literal == b.literal &&
      a.underline == b.underline && a.size == b.size && a.color == b.color) := by
  rw [Bool.eq_iff_iff, alike_iff]
  cases a with
  | mk ab ae ai as al au az ac =>
    cases b with
    | mk bb be bi bs bl bu bz bc =>
      cases al <;> cases bl <;> simp [visible, and_assoc]

def flag (on : Bool) (letter : Char) : Char :=
  if on then letter else letter.toLower

def underlineMark (level : UInt8) : Char :=
  if level = 0 then '|' else if level = 1 then '-' else if level = 2 then '=' else '≡'

/-- The short form of a style, such as `Beist|0R`. -/
def shortForm (style : Style) : String :=
  String.ofList
      [flag style.bold 'B', flag style.emphasis 'E', flag style.italic 'I',
        flag style.strike 'S', flag style.literal 'T', underlineMark style.underline]
    ++ toString style.size.toNat ++ String.singleton style.color.letter

end Style

end StyledMarkup
