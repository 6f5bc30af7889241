import StyledMarkup.Style
import StyledMarkup.Words

/-!
# What a tag does to a style

The content of a tag is one or more directives with spaces between them. They
act from left to right, each on the result of the one before. Emphasis is the
exception: it sets the attribute to the opposite of what it was when the tag
began, so that naming it twice in one tag is naming it once.

One unknown piece makes the whole tag unknown, and so does a content without
pieces.
-/
namespace StyledMarkup

inductive Directive where
  | bold | emphasis | italic | strike | literal | underline
  /-- Turns off all decoration but the italic, and keeps size and color. -/
  | plain
  | size (digit : Fin 10)
  | color (color : Color)
  deriving DecidableEq, Repr

/-- A piece of a tag that is no directive, or the whole of one without pieces. -/
structure UnknownTag where
  tag : String
  deriving DecidableEq, Repr

def UnknownTag.message (unknown : UnknownTag) : String :=
  "Unknown tag: <" ++ unknown.tag ++ ">"

namespace Directive

def digit? (piece : String) : Option (Fin 10) :=
  (List.finRange 10).find? fun digit => toString digit.val == piece

def ofPiece? (piece : String) : Option Directive :=
  match piece with
  | "B" => some bold
  | "EM" => some emphasis
  | "Em" => some emphasis
  | "I" => some italic
  | "S" => some strike
  | "TT" => some literal
  | "U" => some underline
  | "PL" => some plain
  | _ => ((digit? piece).map size).or ((Color.ofTag? piece).map color)

/-- One directive, in a tag that began in the style `entry`. -/
def act (entry : Style) (style : Style) : Directive → Style
  | bold => { style with bold := true }
  | emphasis => { style with emphasis := !entry.emphasis }
  | italic => { style with italic := true }
  | strike => { style with strike := true }
  | literal => { style with literal := true }
  | underline =>
      { style with
        underline := if style.underline < Style.maxUnderline then style.underline + 1
          else Style.maxUnderline }
  | plain =>
      { style with
        underline := 0, bold := false, emphasis := false, strike := false, literal := false }
  | size digit => { style with size := UInt8.ofNat digit.val }
  | .color named => { style with color := named }

end Directive

namespace TagContent

/-- The pieces of a tag: only the space stands between them. -/
def pieces (content : String) : List String := Words.split (· == ' ') content

def directives? : List String → Except UnknownTag (List Directive)
  | [] => .ok []
  | piece :: rest =>
      match Directive.ofPiece? piece with
      | none => .error ⟨piece⟩
      | some directive => (directives? rest).map (directive :: ·)

/-- The directives of a tag, in order. -/
def read (content : String) : Except UnknownTag (List Directive) :=
  match pieces content with
  | [] => .error ⟨content⟩
  | piece :: rest => directives? (piece :: rest)

end TagContent

/-- The style inside a tag that is opened in this one. -/
def Style.apply (style : Style) (content : String) : Except UnknownTag Style :=
  (TagContent.read content).map fun directives => directives.foldl (Directive.act style) style

end StyledMarkup
