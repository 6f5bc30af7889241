import StyledMarkup.Proofs.OpenTags
import StyledMarkup.Proofs.ScopeTrace

/-!
# Styles as the tags around a text

A reader never applies a tag twice. It saves the style in force when a tag is opened and
gives it back when a tag is closed, so nothing in it remembers which tags are open. All the
same a text is read in the style that the open tags around it give, applied one after the
other from the outermost: what has been saved is at every moment what the outer ones give.

Names play no part in this. A closing tag closes the tag opened last, whatever either is
called, and one that closes nothing is passed over.
-/
namespace StyledMarkup

namespace TagStack

/-- The contents of the tags open behind a token, the last opened first. -/
def pass (stack : TagStack) : Token → TagStack
  | .text _ => stack
  | .opening content => content :: stack
  | .closing _ => stack.tail

/-- The contents of the tags that are still open behind all tokens. -/
def passAll (stack : TagStack) (tokens : List Token) : TagStack := tokens.foldl pass stack

/-- The scope inside the open tags, entered one by one. -/
inductive LeadsTo : TagStack → Scope → Prop
  | nil : LeadsTo [] .outermost
  | cons {stack : TagStack} {scope : Scope} {content : String} {style : Style} :
      LeadsTo stack scope → scope.style.apply content = .ok style →
      LeadsTo (content :: stack) ⟨style, scope.style :: scope.saved⟩

theorem LeadsTo.denote {stack : TagStack} {scope : Scope} (h : stack.LeadsTo scope) :
    stack.denote = .ok scope.style := by
  induction h with
  | nil => rfl
  | cons _ happly ih =>
      rw [TagStack.denote, ih]
      exact happly

/-- One token takes the reader where it takes the open tags. -/
theorem LeadsTo.advance {stack : TagStack} {scope next : Scope} (h : stack.LeadsTo scope)
    {token : Token} (hnext : scope.advance token = .ok next) :
    (stack.pass token).LeadsTo next := by
  cases token with
  | text written =>
      cases hnext
      exact h
  | opening content =>
      cases happly : scope.style.apply content with
      | error unknown => simp [Scope.advance, Scope.enter, happly, Except.map] at hnext
      | ok style =>
          simp only [Scope.advance, Scope.enter, happly, Except.map, Except.ok.injEq] at hnext
          rw [← hnext]
          exact .cons h happly
  | closing name =>
      cases h with
      | nil =>
          cases hnext
          exact .nil
      | cons houter happly =>
          -- What was saved is the scope in which the tag was opened.
          cases hnext
          exact houter

theorem LeadsTo.advanceAll {stack : TagStack} {scope reached : Scope} (h : stack.LeadsTo scope)
    {tokens : List Token} (hreached : scope.advanceAll tokens = .ok reached) :
    (stack.passAll tokens).LeadsTo reached := by
  induction tokens generalizing stack scope with
  | nil =>
      cases hreached
      exact h
  | cons token tokens ih =>
      obtain ⟨next, hnext, hrest⟩ := Scope.exists_of_advanceAll_cons hreached
      exact ih (h.advance hnext) hrest

/-- The style behind some tokens is that of the tags which they leave open. -/
theorem denote_passAll {tokens : List Token} {reached : Scope}
    (h : Scope.outermost.advanceAll tokens = .ok reached) :
    (passAll [] tokens).denote = .ok reached.style :=
  (LeadsTo.nil.advanceAll h).denote

/-- What holds outside all tags and what every tag keeps holds inside open tags. -/
theorem denote_induction {P : Style → Prop} (hinitial : P .initial)
    (happly : ∀ style content next, P style → style.apply content = .ok next → P next)
    {stack : TagStack} {style : Style} (h : stack.denote = .ok style) : P style := by
  induction stack generalizing style with
  | nil =>
      cases h
      exact hinitial
  | cons content stack ih =>
      cases hstack : denote stack with
      | error unknown => simp [denote, hstack, bind, Except.bind] at h
      | ok outer =>
          rw [denote, hstack] at h
          exact happly outer content style (ih hstack) h

end TagStack

namespace Token

/-- Whether the token adds a run. -/
def holdsText : Token → Bool
  | text written => !written.isEmpty
  | _ => false

end Token

namespace Scope

theorem length_runs (scope : Scope) (token : Token) :
    (scope.runs token).length = if token.holdsText then 1 else 0 := by
  cases token with
  | text written => by_cases hempty : written.isEmpty <;> simp [runs, Token.holdsText, hempty]
  | opening content => rfl
  | closing name => rfl

theorem length_read {scope : Scope} {tokens : List Token} {runs : Document}
    (h : scope.read tokens = .ok runs) : runs.length = tokens.countP Token.holdsText := by
  induction tokens generalizing scope runs with
  | nil =>
      cases h
      rfl
  | cons token tokens ih =>
      obtain ⟨next, later, -, hrest, rfl⟩ := exists_of_read_cons h
      rw [List.length_append, length_runs, ih hrest, List.countP_cons, Nat.add_comm]

/-- The runs of a list of tokens are those of its beginning and those of its rest. -/
theorem exists_of_read_append {scope : Scope} {a b : List Token} {runs : Document}
    (h : scope.read (a ++ b) = .ok runs) :
    ∃ next earlier later, scope.advanceAll a = .ok next ∧ scope.read a = .ok earlier ∧
      next.read b = .ok later ∧ runs = earlier ++ later := by
  induction a generalizing scope runs with
  | nil => exact ⟨scope, [], runs, rfl, rfl, h, rfl⟩
  | cons token a ih =>
      obtain ⟨middle, others, hmiddle, hothers, rfl⟩ := exists_of_read_cons h
      obtain ⟨next, earlier, later, hnext, hearlier, hlater, rfl⟩ := ih hothers
      refine ⟨next, scope.runs token ++ earlier, later, ?_, ?_, hlater, ?_⟩
      · rw [advanceAll_cons hmiddle, hnext]
      · rw [read_cons hmiddle, hearlier]
        rfl
      · rw [List.append_assoc]

end Scope

namespace Document

/-- What is read has one run for each text that is not empty, in their order. The run holds
the text in the style that is reached by applying the tags still open before it, the
outermost first. -/
theorem ofTokens_scoped {tokens : List Token} {runs : Document} (h : ofTokens tokens = .ok runs) :
    runs.length = tokens.countP Token.holdsText ∧
      ∀ front written back, tokens = front ++ .text written :: back → written ≠ "" →
        ∃ style, (TagStack.passAll [] front).denote = .ok style ∧
          runs[front.countP Token.holdsText]? = some (Run.ofText style written) := by
  refine ⟨Scope.length_read h, ?_⟩
  rintro front written back rfl hne
  obtain ⟨reached, earlier, later, hreached, hearlier, hlater, rfl⟩ := Scope.exists_of_read_append h
  obtain ⟨next, others, hnext, -, rfl⟩ := Scope.exists_of_read_cons hlater
  refine ⟨reached.style, TagStack.denote_passAll hreached, ?_⟩
  rw [← Scope.length_read hearlier, List.getElem?_append_right (Nat.le_refl _)]
  simp [Scope.runs, hne]

/-- Closing tags that name other tags than they close, or close nothing, around tags that
toggle and reset. -/
def tangledTokens : List Token :=
  [.closing "B", .opening "B Em", .text "a", .opening "PL Em", .text " b ", .closing "r",
    .text "", .opening "TT", .text " c ", .closing "B", .closing "", .closing "TT", .text "d"]

theorem ofTokens_scoped_tangledTokens :
    ∃ runs front back, ofTokens tangledTokens = .ok runs ∧
      tangledTokens = front ++ .text " c " :: back ∧
      runs.length = 4 ∧ TagStack.passAll [] front = ["TT", "B Em"] ∧
      TagStack.denote ["TT", "B Em"] =
        .ok { bold := true, emphasis := true, literal := true } ∧
      runs[2]? =
        some (Run.ofText { bold := true, emphasis := true, literal := true } " c ") := by
  have h : ofTokens tangledTokens =
      .ok [⟨{ bold := true, emphasis := true }, ["a"]⟩, ⟨{}, ["b"]⟩,
        ⟨{ bold := true, emphasis := true, literal := true }, [" c "]⟩, ⟨{}, ["d"]⟩] := rfl
  obtain ⟨hlength, hruns⟩ := ofTokens_scoped h
  obtain ⟨style, hdenote, hrun⟩ := hruns (tangledTokens.take 8) " c " (tangledTokens.drop 9) rfl
    (by decide)
  have hstyle : TagStack.denote ["TT", "B Em"] =
      .ok { bold := true, emphasis := true, literal := true } := rfl
  obtain rfl := Except.ok.inj (hdenote.symm.trans hstyle)
  exact ⟨_, tangledTokens.take 8, tangledTokens.drop 9, h, rfl, hlength, rfl, hstyle, hrun⟩

end Document

end StyledMarkup
