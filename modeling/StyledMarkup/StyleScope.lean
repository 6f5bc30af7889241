import StyledMarkup.Document
import StyledMarkup.MarkupToken
import StyledMarkup.TagContent

/-!
# Styles in force

While markup is read, a scope holds the style in force and the styles that were
in force when each open tag was opened. A closing tag gives back the last of
them, whatever its name; with no tag open it has no effect.
-/
namespace StyledMarkup

structure Scope where
  style : Style := .initial
  /-- The styles to return to, that of the innermost open tag first. -/
  saved : List Style := []
  deriving DecidableEq, Repr

namespace Scope

/-- Outside all tags. -/
def outermost : Scope := {}

def depth (scope : Scope) : Nat := scope.saved.length

def enter (scope : Scope) (content : String) : Except UnknownTag Scope :=
  (scope.style.apply content).map fun style => ⟨style, scope.style :: scope.saved⟩

/-- Back to the style around the innermost open tag. -/
def leave? (scope : Scope) : Option Scope :=
  match scope.saved with
  | [] => none
  | style :: saved => some ⟨style, saved⟩

/-- The scope behind a token. -/
def advance (scope : Scope) : Token → Except UnknownTag Scope
  | .text _ => .ok scope
  | .opening content => scope.enter content
  | .closing _ => .ok (scope.leave?.getD scope)

/-- The run that a token adds: text that is not empty adds one. -/
def runs (scope : Scope) : Token → List Run
  | .text text => if text.isEmpty then [] else [Run.ofText scope.style text]
  | _ => []

/-- The runs of the tokens that stand in this scope. -/
def read (scope : Scope) : List Token → Except UnknownTag Document
  | [] => .ok []
  | token :: tokens =>
      match scope.advance token with
      | .error unknown => .error unknown
      | .ok next => (next.read tokens).map (scope.runs token ++ ·)

end Scope

/-- The runs of a token list, neither joined nor cleared of empty ones. -/
def Document.ofTokens (tokens : List Token) : Except UnknownTag Document :=
  Scope.outermost.read tokens

end StyledMarkup
