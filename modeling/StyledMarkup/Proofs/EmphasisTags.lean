import StyledMarkup.Proofs.Transitions
import StyledMarkup.Proofs.WrittenAttributes

/-!
# Emphasis in the markup of like documents

Documents that are alike may differ in the emphasis of literal runs, which the text does not
show. The writer does not look whether a run is literal and writes `Em` for every change of
emphasis, so their markup may differ too.

It differs in nothing but `Em` tags. No other tag depends on emphasis, not even where a
cascade closes an `Em` among other tags, so leaving the `Em` tags out is writing the document
without its emphasis. And it does differ as soon as the emphasis does: at the first such run
one document has an `Em` and the other has not, unless the text there looks like a tag or is
empty.
-/
namespace StyledMarkup

namespace Style

def unemphasised (style : Style) : Style := { style with emphasis := false }

@[simp] theorem unemphasised_visible (style : Style) :
    style.visible.unemphasised = style.unemphasised := by
  unfold visible
  split <;> rfl

/-- Only emphasis can tell styles apart that are alike. -/
theorem unemphasised_of_alike {a b : Style} (h : a.alike b = true) :
    a.unemphasised = b.unemphasised := by
  rw [← unemphasised_visible a, alike_iff.1 h, unemphasised_visible]

theorem eq_of_unemphasised {a b : Style} (h : a.unemphasised = b.unemphasised)
    (hemphasis : a.emphasis = b.emphasis) : a = b := by
  cases a
  cases b
  simp_all [unemphasised]

end Style

namespace Run

def unemphasised (run : Run) : Run := { run with style := run.style.unemphasised }

@[simp] theorem text_unemphasised (run : Run) : run.unemphasised.text = run.text := rfl

theorem alike_iff {a b : Run} :
    a.alike b = true ↔ a.style.alike b.style = true ∧ a.words = b.words := by
  simp [alike]

theorem unemphasised_of_alike {a b : Run} (h : a.alike b = true) :
    a.unemphasised = b.unemphasised := by
  obtain ⟨hstyle, hwords⟩ := alike_iff.1 h
  rw [unemphasised, unemphasised, Style.unemphasised_of_alike hstyle, hwords]

theorem eq_of_alike {a b : Run} (h : a.alike b = true)
    (hemphasis : a.style.emphasis = b.style.emphasis) : a = b := by
  have hsame := Run.mk.inj (unemphasised_of_alike h)
  cases a
  cases b
  exact congrArg₂ Run.mk (Style.eq_of_unemphasised hsame.1 hemphasis) hsame.2

end Run

namespace Document

theorem alike_iff_forall₂ {a b : Document} :
    a.alike b = true ↔ List.Forall₂ (fun x y : Run => x.alike y = true) a b := by
  induction a generalizing b with
  | nil => cases b <;> simp [alike]
  | cons run rest ih => cases b <;> simp [alike, ih]

end Document

namespace TagStack

/-- The open tags without the `Em` among them. -/
def unemphasised (stack : TagStack) : TagStack := stack.filter fun name => name != emphasisTag

@[simp] theorem unemphasised_nil : unemphasised [] = [] := rfl

@[simp] theorem unemphasised_emphasisTag (stack : TagStack) :
    unemphasised (emphasisTag :: stack) = stack.unemphasised := by
  simp [unemphasised]

theorem unemphasised_cons {name : String} (h : name ≠ emphasisTag) (stack : TagStack) :
    unemphasised (name :: stack) = name :: stack.unemphasised := by
  simp [unemphasised, h]

@[simp] theorem unemphasised_append (a b : TagStack) :
    unemphasised (a ++ b) = a.unemphasised ++ b.unemphasised := by
  simp [unemphasised]

theorem underBold_unemphasised (stack : TagStack) :
    stack.unemphasised.underBold = stack.underBold.unemphasised := by
  have hbold : emphasisTag ≠ boldTag := by decide
  induction stack with
  | nil => rfl
  | cons name rest ih =>
      by_cases hname : name = emphasisTag
      · rw [hname, unemphasised_emphasisTag, underBold, if_neg hbold, ih]
      · rw [unemphasised_cons hname, underBold, underBold, ih]
        split <;> rfl

theorem underColors_unemphasised (stack : TagStack) :
    stack.unemphasised.underColors = stack.underColors.unemphasised := by
  have hplain : Color.isTag emphasisTag = false := by decide
  induction stack using List.reverseRecOn with
  | nil => rfl
  | append_singleton stack name ih =>
      by_cases hname : name = emphasisTag
      · simp [underColors_concat, hname, hplain, ih]
      · have hlast : unemphasised [name] = [name] := unemphasised_cons hname []
        rw [unemphasised_append, hlast, underColors_concat, underColors_concat, ih]
        split
        · rfl
        · rw [unemphasised_append, hlast]

theorem turnBold_unemphasised (before after : Style) (stack : TagStack) :
    turnBold before.unemphasised after.unemphasised stack.unemphasised =
      (turnBold before after stack).unemphasised := by
  change turnBold before after stack.unemphasised = _
  unfold turnBold
  split_ifs
  · rfl
  · exact (unemphasised_cons (by decide) stack).symm
  · exact underBold_unemphasised stack

theorem turnEmphasis_unemphasised (before after : Style) (stack : TagStack) :
    turnEmphasis before.unemphasised after.unemphasised stack.unemphasised =
      (turnEmphasis before after stack).unemphasised := by
  have hkept : turnEmphasis before.unemphasised after.unemphasised stack.unemphasised =
      stack.unemphasised := if_pos rfl
  rw [hkept, turnEmphasis]
  split <;> simp

theorem turnColor_unemphasised (before after : Style) (stack : TagStack) :
    turnColor before.unemphasised after.unemphasised stack.unemphasised =
      (turnColor before after stack).unemphasised := by
  change turnColor before after stack.unemphasised = _
  unfold turnColor
  split_ifs
  · rfl
  · cases htag : after.color.tag? with
    | some tag => exact (unemphasised_cons (Color.tag?_ne_emphasisTag htag) stack).symm
    | none => exact underColors_unemphasised stack

/-- Without emphasis a transition leads to the same tags but for `Em`. -/
theorem turn_unemphasised (before after : Style) (stack : TagStack) :
    turn before.unemphasised after.unemphasised stack.unemphasised =
      (turn before after stack).unemphasised := by
  rw [turn, turnBold_unemphasised, turnEmphasis_unemphasised, turnColor_unemphasised, turn]

end TagStack

namespace Token

/-- Whether the token is an `Em` tag, be it an opening or a closing one. -/
def isEmphasis : Token → Bool
  | text _ => false
  | opening name => name == TagStack.emphasisTag
  | closing name => name == TagStack.emphasisTag

/-- The tokens without the `Em` tags among them. -/
def withoutEmphasis (tokens : List Token) : List Token :=
  tokens.filter fun token => !token.isEmphasis

@[simp] theorem withoutEmphasis_append (a b : List Token) :
    withoutEmphasis (a ++ b) = withoutEmphasis a ++ withoutEmphasis b := by
  simp [withoutEmphasis]

@[simp] theorem withoutEmphasis_text (written : String) (tokens : List Token) :
    withoutEmphasis (text written :: tokens) = text written :: withoutEmphasis tokens := rfl

theorem withoutEmphasis_opening (names : TagStack) :
    withoutEmphasis (names.map opening) = names.unemphasised.map opening := by
  rw [withoutEmphasis, List.filter_map]
  rfl

theorem withoutEmphasis_closing (names : TagStack) :
    withoutEmphasis (names.map closing) = names.unemphasised.map closing := by
  rw [withoutEmphasis, List.filter_map]
  rfl

end Token

namespace TagStack

theorem map_token_closes (names : TagStack) :
    (names.map TagEdit.closes).map TagEdit.token = names.map Token.closing := by
  rw [List.map_map]
  rfl

theorem map_token_opens (names : TagStack) :
    (names.map TagEdit.opens).map TagEdit.token = names.map Token.opening := by
  rw [List.map_map]
  rfl

/-- On the way between two stacks the `Em` tags are those of the names `Em`. -/
theorem withoutEmphasis_way {stack next : TagStack} (h : next <:+ stack ∨ stack <:+ next) :
    Token.withoutEmphasis ((stack.way next).map TagEdit.token) =
      (stack.unemphasised.way next.unemphasised).map TagEdit.token := by
  rcases h with ⟨names, rfl⟩ | ⟨names, rfl⟩
  · rw [way_append, unemphasised_append, way_append, map_token_closes, map_token_closes,
      Token.withoutEmphasis_closing]
  · have hreverse : unemphasised names.reverse = (unemphasised names).reverse :=
      List.filter_reverse
    rw [way_to_append, unemphasised_append, way_to_append, map_token_opens, map_token_opens,
      Token.withoutEmphasis_opening, hreverse]

/-- Each attribute takes the stack to an outer part of it or to a longer stack. -/
theorem turnBold_suffix (before after : Style) (stack : TagStack) :
    turnBold before after stack <:+ stack ∨ stack <:+ turnBold before after stack := by
  unfold turnBold
  split_ifs
  · exact .inl (List.suffix_refl stack)
  · exact .inr (List.suffix_cons boldTag stack)
  · exact .inl (underBold_suffix stack)

theorem turnEmphasis_suffix (before after : Style) (stack : TagStack) :
    turnEmphasis before after stack <:+ stack ∨ stack <:+ turnEmphasis before after stack := by
  unfold turnEmphasis
  split_ifs
  · exact .inl (List.suffix_refl stack)
  · exact .inr (List.suffix_cons emphasisTag stack)

theorem turnColor_suffix (before after : Style) (stack : TagStack) :
    turnColor before after stack <:+ stack ∨ stack <:+ turnColor before after stack := by
  unfold turnColor
  split_ifs
  · exact .inl (List.suffix_refl stack)
  · cases after.color.tag? with
    | some tag => exact .inr (List.suffix_cons tag stack)
    | none => exact .inl (underColors_suffix stack)

theorem withoutEmphasis_edits (before after : Style) (stack : TagStack) :
    Token.withoutEmphasis ((edits before after stack).map TagEdit.token) =
      (edits before.unemphasised after.unemphasised stack.unemphasised).map TagEdit.token := by
  rw [edits_eq_ways, edits_eq_ways, turnBold_unemphasised, turnEmphasis_unemphasised,
    turn_unemphasised]
  simp only [List.map_append, Token.withoutEmphasis_append]
  rw [withoutEmphasis_way (turnBold_suffix before after stack),
    withoutEmphasis_way (turnEmphasis_suffix before after _), turn,
    withoutEmphasis_way (turnColor_suffix before after _)]

end TagStack

namespace Writer

def unemphasised (writer : Writer) : Writer :=
  ⟨writer.style.unemphasised, writer.openTags.unemphasised⟩

/-- Styles without emphasis that are alike are equal, so no run makes a difference by being
passed over. -/
theorem edits_unemphasised (writer : Writer) (run : Run) :
    writer.unemphasised.edits run.unemphasised =
      TagStack.edits writer.style.unemphasised run.style.unemphasised
        writer.openTags.unemphasised := by
  cases halike : writer.unemphasised.style.alike run.unemphasised.style with
  | false => exact edits_of_distinct halike
  | true =>
      have hsame := Style.unemphasised_of_alike halike
      change writer.style.unemphasised = run.style.unemphasised at hsame
      rw [edits, if_pos halike, hsame, TagStack.edits_self]

theorem withoutEmphasis_edits (writer : Writer) (run : Run) :
    Token.withoutEmphasis ((writer.edits run).map TagEdit.token) =
      (writer.unemphasised.edits run.unemphasised).map TagEdit.token := by
  rw [edits_unemphasised]
  cases halike : writer.style.alike run.style with
  | false => rw [edits_of_distinct halike, TagStack.withoutEmphasis_edits]
  | true =>
      rw [edits, if_pos halike, Style.unemphasised_of_alike halike, TagStack.edits_self]
      rfl

theorem advance_unemphasised (writer : Writer) (run : Run) :
    writer.unemphasised.advance run.unemphasised = (writer.advance run).unemphasised := by
  have htags : writer.openTags.unemphasised.editAll
      (TagStack.edits writer.style.unemphasised run.style.unemphasised
        writer.openTags.unemphasised) =
      TagStack.unemphasised (writer.openTags.editAll (writer.edits run)) := by
    cases halike : writer.style.alike run.style with
    | false =>
        rw [edits_of_distinct halike, TagStack.editAll_edits, TagStack.editAll_edits,
          TagStack.turn_unemphasised]
    | true =>
        rw [edits, if_pos halike, Style.unemphasised_of_alike halike, TagStack.edits_self]
        rfl
  rw [advance, edits_unemphasised]
  exact congrArg (Writer.mk run.style.unemphasised) htags

/-- Leaving out the `Em` tags is writing without emphasis. -/
theorem withoutEmphasis_write (writer : Writer) (document : Document) :
    Token.withoutEmphasis (writer.write document) =
      writer.unemphasised.write (document.map Run.unemphasised) := by
  induction document generalizing writer with
  | nil => exact Token.withoutEmphasis_closing writer.openTags
  | cons run rest ih =>
      rw [write, Token.withoutEmphasis_append, withoutEmphasis_edits, Token.withoutEmphasis_text,
        ih, List.map_cons, write, advance_unemphasised, Run.text_unemphasised]

end Writer

namespace Document

theorem withoutEmphasis_tokens (document : Document) :
    Token.withoutEmphasis document.tokens = tokens (document.map Run.unemphasised) :=
  Writer.withoutEmphasis_write Writer.start document

end Document

namespace Token

theorem begins_emphasis (tokens : List Token) :
    ['<', 'E'] <+: (renderAll (opening TagStack.emphasisTag :: tokens)).toList := by
  simp [render, TagStack.emphasisTag]

theorem not_begins_text {written : String} (hne : written ≠ "")
    (hhead : written.toList.head? ≠ some '<') (tokens : List Token) :
    ¬ ['<', 'E'] <+: (renderAll (text written :: tokens)).toList := by
  cases hchars : written.toList with
  | nil => exact absurd (String.toList_eq_nil_iff.1 hchars) hne
  | cons c rest =>
      rw [hchars] at hhead
      have hc : '<' ≠ c := fun heq => hhead (by rw [heq]; rfl)
      simp [render, hchars, hc]

end Token

namespace TagStack

/-- No tag that is written for a color looks like an `Em`. -/
theorem not_begins_colorEdits {written : String} (hne : written ≠ "")
    (hhead : written.toList.head? ≠ some '<') (before after : Style) (stack : TagStack)
    (tokens : List Token) :
    ¬ ['<', 'E'] <+: (Token.renderAll ((colorEdits before after stack).map TagEdit.token ++
      .text written :: tokens)).toList := by
  have hnone := Token.not_begins_text hne hhead tokens
  unfold colorEdits
  split
  · exact hnone
  · split
    · rename_i tag htag
      generalize after.color = color at htag
      cases color <;> simp only [Color.tag?, Option.some.injEq, reduceCtorEq] at htag <;>
        subst htag <;> simp [TagEdit.token, Token.render]
    · cases stack.throughColors with
      | nil => exact hnone
      | cons name rest => simp [TagEdit.token, Token.render]

/-- A change of emphasis shows in what comes behind the tags for bold. -/
theorem renderAll_ne_of_emphasis {before x y : Style} (hx : before.emphasis ≠ x.emphasis)
    (hy : before.emphasis = y.emphasis) {written : String} (hne : written ≠ "")
    (hhead : written.toList.head? ≠ some '<') (stack stack' : TagStack)
    (tokens tokens' : List Token) :
    Token.renderAll ((emphasisEdits before x ++ colorEdits before x stack).map TagEdit.token ++
        .text written :: tokens) ≠
      Token.renderAll ((emphasisEdits before y ++ colorEdits before y stack').map TagEdit.token ++
        .text written :: tokens') := by
  have hchange : emphasisEdits before x = [.opens emphasisTag] := if_neg hx
  have hsame : emphasisEdits before y = [] := if_pos hy
  rw [hchange, hsame, List.nil_append]
  intro heq
  refine not_begins_colorEdits hne hhead before y stack' tokens' ?_
  rw [← heq]
  exact Token.begins_emphasis _

/-- Two transitions from the same place that agree in bold are told apart by emphasis. -/
theorem emphasis_eq_of_renderAll {before x y : Style} (hbold : x.bold = y.bold)
    {written : String} (hne : written ≠ "") (hhead : written.toList.head? ≠ some '<')
    {stack : TagStack} {tokens tokens' : List Token}
    (h : Token.renderAll ((edits before x stack).map TagEdit.token ++ .text written :: tokens) =
      Token.renderAll ((edits before y stack).map TagEdit.token ++ .text written :: tokens')) :
    x.emphasis = y.emphasis := by
  have hsame : boldEdits before x stack = boldEdits before y stack := by
    unfold boldEdits
    rw [hbold]
  have hsplit (after : Style) (tokens : List Token) :
      Token.renderAll ((edits before after stack).map TagEdit.token ++ .text written :: tokens) =
        Token.renderAll ((boldEdits before after stack).map TagEdit.token) ++
          Token.renderAll ((emphasisEdits before after ++ colorEdits before after
            ((stack.editAll (boldEdits before after stack)).editAll
              (emphasisEdits before after))).map TagEdit.token ++ .text written :: tokens) := by
    rw [edits, List.append_assoc, List.map_append, List.append_assoc, Token.renderAll_append]
  rw [hsplit, hsplit, hsame, String.append_right_inj] at h
  by_contra hdiffer
  by_cases hx : before.emphasis = x.emphasis
  · have hy : before.emphasis ≠ y.emphasis := fun hy => hdiffer (hx.symm.trans hy)
    exact renderAll_ne_of_emphasis hy hx hne hhead _ _ _ _ h.symm
  · have hy : before.emphasis = y.emphasis :=
      (Bool.eq_not_of_ne hx).trans (Bool.eq_not_of_ne (Ne.symm hdiffer)).symm
    exact renderAll_ne_of_emphasis hx hy hne hhead _ _ _ _ h

end TagStack

namespace Writer

/-- The first difference in emphasis shows. -/
theorem eq_of_renderAll_write {writer : Writer} {a b : Document}
    (h : List.Forall₂ (fun x y : Run => x.alike y = true) a b) (ha : writer.Enters a)
    (hb : writer.Enters b) (hadistinct : a.IsChain fun x y => x.style.alike y.style = false)
    (hbdistinct : b.IsChain fun x y => x.style.alike y.style = false)
    (htext : ∀ run ∈ a, run.style.literal = true →
      run.text ≠ "" ∧ run.text.toList.head? ≠ some '<')
    (heq : Token.renderAll (writer.write a) = Token.renderAll (writer.write b)) : a = b := by
  induction h generalizing writer with
  | nil => rfl
  | @cons x y as bs hrun hrest ih =>
      have hstyle := (Run.alike_iff.1 hrun).1
      have hwritten : x.text = y.text := by
        rw [← Run.text_unemphasised, Run.unemphasised_of_alike hrun, Run.text_unemphasised]
      have hbold : x.style.bold = y.style.bold := (Style.look_of_alike hstyle).1.symm
      have hemphasis : x.style.emphasis = y.style.emphasis := by
        cases hliteral : x.style.literal with
        | false =>
            have hrunning := (Style.literal_of_alike hstyle).symm.trans hliteral
            rw [(Style.alike_iff_eq hliteral hrunning).1 hstyle]
        | true =>
            obtain ⟨hne, hhead⟩ := htext x List.mem_cons_self hliteral
            rw [write, write, ha.edits, hb.edits, ← hwritten] at heq
            exact TagStack.emphasis_eq_of_renderAll hbold hne hhead heq
      -- Up to here the writers have gone the same way.
      obtain rfl := Run.eq_of_alike hrun hemphasis
      rw [write, write, Token.renderAll_append, Token.renderAll_append, String.append_right_inj,
        Token.renderAll_cons, Token.renderAll_cons, String.append_right_inj] at heq
      have hrest := ih (enters_advance writer hadistinct) (enters_advance writer hbdistinct)
        hadistinct.of_cons hbdistinct.of_cons
        (fun run hrun => htext run (List.mem_cons_of_mem x hrun)) heq
      rw [hrest]

end Writer

namespace Document

/-- Documents that are alike and agree in emphasis are equal. -/
theorem eq_of_alike {a b : Document}
    (h : List.Forall₂ (fun x y : Run => x.alike y = true) a b)
    (hemphasis : a.map (fun run => run.style.emphasis) = b.map fun run => run.style.emphasis) :
    a = b := by
  induction h with
  | nil => rfl
  | cons hrun _ ih =>
      obtain ⟨hfirst, hlater⟩ := List.cons.inj hemphasis
      rw [Run.eq_of_alike hrun hfirst, ih hlater]

/-- Compact documents that are alike are written in the same tags and texts, but for `Em` tags.
They have the same markup if they agree in the emphasis of every run, and only then, unless
there is literal text that is empty or looks like a tag. -/
theorem markup_of_alike {a b : Document} (ha : a.IsCompact) (hb : b.IsCompact)
    (h : a.alike b = true) :
    Token.withoutEmphasis a.tokens = Token.withoutEmphasis b.tokens ∧
      (a.map (fun run => run.style.emphasis) = b.map (fun run => run.style.emphasis) →
        a.markup = b.markup) ∧
      ((∀ run ∈ a, run.style.literal = true →
          run.text ≠ "" ∧ run.text.toList.head? ≠ some '<') →
        a.markup = b.markup →
          a.map (fun run => run.style.emphasis) = b.map fun run => run.style.emphasis) := by
  have halike := alike_iff_forall₂.1 h
  refine ⟨?_, fun hemphasis => ?_, fun htext heq => ?_⟩
  · rw [withoutEmphasis_tokens, withoutEmphasis_tokens,
      map_eq_of_forall₂ (halike.imp fun _ _ hrun => Run.unemphasised_of_alike hrun)]
  · rw [eq_of_alike halike hemphasis]
  · rw [Writer.eq_of_renderAll_write halike (Writer.enters_start a) (Writer.enters_start b)
      ha.distinct hb.distinct htext heq]

/-- Literal text inside bold, a color opened there, and the end of both. -/
def calmPages : Document :=
  [⟨{ bold := true, literal := true }, ["a"]⟩,
    ⟨{ bold := true, literal := true, color := .red }, ["b "]⟩,
    ⟨{ literal := true, color := .red }, [">"]⟩, ⟨{}, ["c", "d"]⟩]

/-- The same with two of the literal runs emphasised. -/
def stirredPages : Document :=
  [⟨{ bold := true, literal := true, emphasis := true }, ["a"]⟩,
    ⟨{ bold := true, literal := true, color := .red }, ["b "]⟩,
    ⟨{ literal := true, emphasis := true, color := .red }, [">"]⟩, ⟨{}, ["c", "d"]⟩]

theorem markup_stirredPages :
    calmPages.IsCompact ∧ stirredPages.IsCompact ∧ calmPages.alike stirredPages = true ∧
      (∀ run ∈ calmPages, run.style.literal = true →
        run.text ≠ "" ∧ run.text.toList.head? ≠ some '<') ∧
      Token.withoutEmphasis calmPages.tokens = Token.withoutEmphasis stirredPages.tokens ∧
      calmPages.markup ≠ stirredPages.markup := by
  have hcalm : calmPages.IsCompact := by decide
  have hstirred : stirredPages.IsCompact := by decide
  have halike : calmPages.alike stirredPages = true := by decide
  have htext : ∀ run ∈ calmPages, run.style.literal = true →
      run.text ≠ "" ∧ run.text.toList.head? ≠ some '<' := by decide
  obtain ⟨hapart, -, hexact⟩ := markup_of_alike hcalm hstirred halike
  refine ⟨hcalm, hstirred, halike, htext, hapart, fun heq => ?_⟩
  have hemphasis := hexact htext heq
  exact absurd hemphasis (by decide)

/-- Documents that are alike need not have the same markup: the emphasis of literal text does
not count for likeness, and is written. -/
theorem markup_not_decided_by_alike :
    ¬ ∀ a b : Document, a.IsCompact → b.IsCompact → a.alike b = true → a.markup = b.markup := by
  intro h
  have hmarkup := h [⟨{ literal := true }, ["a"]⟩] [⟨{ literal := true, emphasis := true }, ["a"]⟩]
    (by decide) (by decide) (by decide)
  exact absurd hmarkup (by decide)

/-- A text that looks like a tag can stand in for it. -/
example :
    markup [⟨{ literal := true, italic := true, emphasis := true }, ["<Em>"]⟩,
        ⟨{ literal := true, emphasis := true }, ["a"]⟩] =
      markup [⟨{ literal := true, italic := true }, ["<Em>"]⟩,
        ⟨{ literal := true, emphasis := true }, ["a"]⟩] := by
  decide

end Document

end StyledMarkup
