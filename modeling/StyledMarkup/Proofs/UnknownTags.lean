import StyledMarkup.Proofs.DroppedInput
import StyledMarkup.Proofs.ScopeTrace

/-!
# Unknown tags

A conversion fails for one reason: there is an opening tag before the cut whose content is
blank or has a piece that is no word of the vocabulary. What is reported is the leftmost such
piece of the first such tag, or the whole of a blank content.

Nothing else has a part in this. Closing tags may have any name, texts may stand anywhere,
and it does not matter what the tags before it have done to the style.
-/
namespace StyledMarkup

namespace TagContent

/-- The pieces that mean something in a tag: the names of attributes, the digits of sizes and
the letters of colors. -/
def vocabulary : List String :=
  ["B", "EM", "Em", "I", "S", "TT", "U", "PL",
    "0", "1", "2", "3", "4", "5", "6", "7", "8", "9",
    "w", "r", "g", "b", "c", "y", "m", "k"]

/-- The content is not blank and says nothing outside the vocabulary. -/
structure IsKnown (content : String) : Prop where
  filled : pieces content ≠ []
  known : ∀ piece ∈ pieces content, piece ∈ vocabulary

/-- What is wrong with the content of a tag: its leftmost piece outside the vocabulary, or all
of it if there are no pieces. -/
def blame? (content : String) : Option String :=
  if pieces content = [] then some content
  else (pieces content).find? fun piece => decide (piece ∉ vocabulary)

theorem blame?_eq_none_iff {content : String} : blame? content = none ↔ IsKnown content := by
  unfold blame?
  split
  · rename_i hblank
    exact ⟨nofun, fun h => absurd hblank h.filled⟩
  · rename_i hfilled
    rw [List.find?_eq_none]
    constructor
    · intro h
      exact ⟨hfilled, fun piece hpiece => by simpa using h piece hpiece⟩
    · intro h piece hpiece
      simpa using h.known piece hpiece

theorem exists_findSome?_blame?_iff {contents : List String} :
    (∃ tag, contents.findSome? blame? = some tag) ↔
      ∃ content ∈ contents, ¬ IsKnown content := by
  rw [← Option.ne_none_iff_exists', Ne, List.findSome?_eq_none_iff]
  simp [blame?_eq_none_iff]

end TagContent

namespace Directive

theorem digit_mem_vocabulary : ∀ digit : Fin 10, toString digit.val ∈ TagContent.vocabulary := by
  decide

theorem colorTag_mem_vocabulary {color : Color} {tag : String} (h : color.tag? = some tag) :
    tag ∈ TagContent.vocabulary := by
  cases color <;> simp only [Color.tag?, Option.some.injEq, reduceCtorEq] at h <;> subst h <;>
    decide

theorem isSome_ofPiece?_of_mem :
    ∀ piece ∈ TagContent.vocabulary, (ofPiece? piece).isSome = true := by
  decide

/-- The pieces that ask for the directive; the default color cannot be asked for. -/
def spellings : Directive → List String
  | bold => ["B"]
  | emphasis => ["EM", "Em"]
  | italic => ["I"]
  | strike => ["S"]
  | literal => ["TT"]
  | underline => ["U"]
  | plain => ["PL"]
  | size digit => [toString digit.val]
  | .color named => named.tag?.toList

theorem mem_spellings_of_ofPiece? {piece : String} {directive : Directive}
    (h : ofPiece? piece = some directive) : piece ∈ directive.spellings := by
  unfold ofPiece? at h
  split at h <;> try (cases h; simp [spellings])
  -- The piece is no name of an attribute, so it is a digit or the letter of a color.
  rcases Option.or_eq_some_iff.1 h with hsize | ⟨-, hcolor⟩
  · obtain ⟨digit, hdigit, rfl⟩ := Option.map_eq_some_iff.1 hsize
    have hpiece : toString digit.val = piece := by simpa using List.find?_some hdigit
    exact List.mem_singleton.2 hpiece.symm
  · obtain ⟨named, htag, rfl⟩ := Option.map_eq_some_iff.1 hcolor
    exact Option.mem_toList.2 (Color.tag?_of_ofTag? htag)

theorem mem_vocabulary_of_mem_spellings {piece : String} {directive : Directive}
    (h : piece ∈ directive.spellings) : piece ∈ TagContent.vocabulary := by
  cases directive with
  | size digit =>
      obtain rfl := List.mem_singleton.1 h
      exact digit_mem_vocabulary digit
  | color named => exact colorTag_mem_vocabulary (Option.mem_toList.1 h)
  | _ =>
      revert piece
      decide

theorem mem_vocabulary_of_ofPiece? {piece : String} {directive : Directive}
    (h : ofPiece? piece = some directive) : piece ∈ TagContent.vocabulary :=
  mem_vocabulary_of_mem_spellings (mem_spellings_of_ofPiece? h)

/-- The vocabulary has the pieces that are read as directives and no others. -/
theorem ofPiece?_eq_none_iff {piece : String} :
    ofPiece? piece = none ↔ piece ∉ TagContent.vocabulary := by
  constructor
  · intro hnone hmem
    have hsome := isSome_ofPiece?_of_mem piece hmem
    rw [hnone] at hsome
    cases hsome
  · intro hmem
    cases hpiece : ofPiece? piece with
    | none => rfl
    | some directive => exact absurd (mem_vocabulary_of_ofPiece? hpiece) hmem

end Directive

/-- Nothing that is made of a result changes its failure. -/
theorem map_eq_error_iff {ε α β : Type} {result : Except ε α} {f : α → β} {failure : ε} :
    result.map f = .error failure ↔ result = .error failure := by
  cases result <;> simp [Except.map]

theorem UnknownTag.mk_eq_iff {tag : String} {unknown : UnknownTag} :
    UnknownTag.mk tag = unknown ↔ tag = unknown.tag := by
  cases unknown
  simp

namespace TagContent

theorem directives?_eq_error_iff {pieces : List String} {unknown : UnknownTag} :
    directives? pieces = .error unknown ↔
      pieces.find? (fun piece => decide (piece ∉ vocabulary)) = some unknown.tag := by
  induction pieces with
  | nil => simp [directives?]
  | cons piece rest ih =>
      cases hpiece : Directive.ofPiece? piece with
      | none =>
          have hunknown := Directive.ofPiece?_eq_none_iff.1 hpiece
          simp [directives?, hpiece, hunknown, UnknownTag.mk_eq_iff]
      | some directive =>
          have hknown := Directive.mem_vocabulary_of_ofPiece? hpiece
          simp [directives?, hpiece, hknown, map_eq_error_iff, ih]

/-- A tag is not read for what is wrong with its content. -/
theorem read_eq_error_iff {content : String} {unknown : UnknownTag} :
    read content = .error unknown ↔ blame? content = some unknown.tag := by
  unfold read blame?
  split
  · rename_i hblank
    simp [hblank, UnknownTag.mk_eq_iff]
  · rename_i piece rest hpieces
    rw [hpieces, if_neg (List.cons_ne_nil _ _), directives?_eq_error_iff]

end TagContent

namespace Token

def opening? : Token → Option String
  | text _ => none
  | opening content => some content
  | closing _ => none

/-- The contents of the opening tags among the tokens. -/
def openings (tokens : List Token) : List String := tokens.filterMap opening?

@[simp] theorem openings_nil : openings [] = [] := rfl

@[simp] theorem openings_text (written : String) (tokens : List Token) :
    openings (text written :: tokens) = openings tokens := rfl

@[simp] theorem openings_opening (content : String) (tokens : List Token) :
    openings (opening content :: tokens) = content :: openings tokens := rfl

@[simp] theorem openings_closing (name : String) (tokens : List Token) :
    openings (closing name :: tokens) = openings tokens := rfl

theorem mem_openings {content : String} {tokens : List Token} :
    content ∈ openings tokens ↔ .opening content ∈ tokens := by
  induction tokens with
  | nil => simp
  | cons token tokens ih => cases token <;> simp [ih]

end Token

namespace Scope

/-- A tag is entered unless there is something wrong with its content, whatever the style. -/
theorem advance_opening_eq_error_iff {scope : Scope} {content : String} {unknown : UnknownTag} :
    scope.advance (.opening content) = .error unknown ↔
      TagContent.blame? content = some unknown.tag := by
  rw [advance, enter, Style.apply, map_eq_error_iff, map_eq_error_iff,
    TagContent.read_eq_error_iff]

/-- Reading fails at the first tag that is unknown, whatever the style in which it begins. -/
theorem read_eq_error_iff {scope : Scope} {tokens : List Token} {unknown : UnknownTag} :
    scope.read tokens = .error unknown ↔
      (Token.openings tokens).findSome? TagContent.blame? = some unknown.tag := by
  induction tokens generalizing scope with
  | nil => simp [read]
  | cons token tokens ih =>
      cases token with
      | text written =>
          rw [read_cons (advance_text scope written), map_eq_error_iff, ih, Token.openings_text]
      | closing name =>
          have hadvance : scope.advance (.closing name) = .ok (scope.leave?.getD scope) := rfl
          rw [read_cons hadvance, map_eq_error_iff, ih, Token.openings_closing]
      | opening content =>
          rw [Token.openings_opening, List.findSome?_cons]
          cases hadvance : scope.advance (.opening content) with
          | error found =>
              rw [read, hadvance, advance_opening_eq_error_iff.1 hadvance]
              simp [← UnknownTag.mk_eq_iff]
          | ok next =>
              have hblame : TagContent.blame? content = none := by
                refine Option.eq_none_iff_forall_ne_some.2 fun tag htag => ?_
                have hfails : scope.advance (.opening content) = .error ⟨tag⟩ :=
                  advance_opening_eq_error_iff.2 htag
                rw [hadvance] at hfails
                cases hfails
              rw [read_cons hadvance, map_eq_error_iff, ih, hblame]

end Scope

theorem convert_eq_error_iff_read {markup : String} {unknown : UnknownTag} :
    convert markup = .error unknown ↔
      Scope.outermost.read (tokenize markup).tokens = .error unknown := by
  rw [convert, readMarkup, map_eq_error_iff, map_eq_error_iff]
  rfl

theorem convert_eq_error_iff_blame {markup : String} {unknown : UnknownTag} :
    convert markup = .error unknown ↔
      (Token.openings (tokenize markup).tokens).findSome? TagContent.blame? =
        some unknown.tag := by
  rw [convert_eq_error_iff_read, Scope.read_eq_error_iff]

theorem exists_convert_eq_error_iff {markup : String} :
    (∃ unknown, convert markup = .error unknown) ↔
      ∃ content, .opening content ∈ (tokenize markup).tokens ∧ ¬ TagContent.IsKnown content := by
  calc (∃ unknown, convert markup = .error unknown)
      ↔ ∃ tag, (Token.openings (tokenize markup).tokens).findSome? TagContent.blame? =
          some tag := by
        constructor
        · rintro ⟨unknown, hfails⟩
          exact ⟨unknown.tag, convert_eq_error_iff_blame.1 hfails⟩
        · rintro ⟨tag, hblame⟩
          exact ⟨⟨tag⟩, convert_eq_error_iff_blame.2 hblame⟩
    _ ↔ ∃ content, .opening content ∈ (tokenize markup).tokens ∧
          ¬ TagContent.IsKnown content := by
        simp only [TagContent.exists_findSome?_blame?_iff, Token.mem_openings]

/-- Markup fails to convert if and only if some opening tag before the cut is unknown. The
failure names what is wrong with the first such tag. Any tokens with the same opening tags
fail in this way, in whatever scope they stand, and so does any markup that agrees with this
one up to where both are cut. -/
theorem convert_eq_error_iff (markup : String) :
    ((∃ unknown, convert markup = .error unknown) ↔
        ∃ content, .opening content ∈ (tokenize markup).tokens ∧
          ¬ TagContent.IsKnown content) ∧
      (∀ unknown, convert markup = .error unknown ↔
        (Token.openings (tokenize markup).tokens).findSome? TagContent.blame? =
          some unknown.tag) ∧
      (∀ (scope : Scope) (tokens : List Token),
        Token.openings tokens = Token.openings (tokenize markup).tokens →
        ∀ unknown, scope.read tokens = .error unknown ↔ convert markup = .error unknown) ∧
      ∀ other : String, (tokenize other).extent other = (tokenize markup).extent markup →
        other.toByteArray.extract 0 ((tokenize markup).extent markup) =
          markup.toByteArray.extract 0 ((tokenize markup).extent markup) →
        ∀ unknown, convert other = .error unknown ↔ convert markup = .error unknown := by
  refine ⟨exists_convert_eq_error_iff, fun _ => convert_eq_error_iff_blame, ?_, ?_⟩
  · intro scope tokens hopenings unknown
    rw [convert_eq_error_iff_blame, Scope.read_eq_error_iff, hopenings]
  · intro other hextent hbytes unknown
    rw [convert_eq_error_iff_read, Token.tokens_eq_of_agree hextent hbytes,
      ← convert_eq_error_iff_read]

/-- Two unknown tags, of which the first has two unknown pieces, one with a tab in it. Closing
tags with other names stand around them, and the last tag does not end. -/
def misspeltMarkup : String := "</Q><B  r>a<Em zz\tB 10>b<qq>c</10><d"

theorem convert_misspeltMarkup_eq_error :
    convert misspeltMarkup = .error ⟨"zz\tB"⟩ ∧
      Scope.read ⟨{ literal := true, emphasis := true }, []⟩
          [.opening "B  r", .closing "", .text "x", .opening "Em zz\tB 10", .opening "qq"] =
        .error ⟨"zz\tB"⟩ ∧
      convert "</Q><B  r>a<Em zz\tB 10>b<qq>c</10><><U V>" = .error ⟨"zz\tB"⟩ := by
  obtain ⟨-, hnames, htokens, hother⟩ := convert_eq_error_iff misspeltMarkup
  have hfails : convert misspeltMarkup = .error ⟨"zz\tB"⟩ :=
    (hnames ⟨"zz\tB"⟩).2 (by decide +kernel)
  refine ⟨hfails, ?_, ?_⟩
  · exact (htokens _ _ (by decide +kernel) _).2 hfails
  · exact (hother _ (by decide +kernel) (by decide +kernel) _).2 hfails

end StyledMarkup
