import StyledMarkup.Proofs.OpenTags
import StyledMarkup.Proofs.TokenFusion
import StyledMarkup.Proofs.WordText

/-!
# Styles spelled out in one tag

Tags take underline no higher than 3 and size no higher than 9, whatever they are applied
to. Within these bounds every style can be asked for, and one tag is enough: it names what
is on, as many underlines as there are to be, the size and the color. Such a tag is to be
opened outside all others, where everything that it does not name is off.
-/
namespace StyledMarkup

/-- The levels are ones that tags can reach. -/
structure Style.InRange (style : Style) : Prop where
  underline : style.underline ≤ Style.maxUnderline
  size : style.size ≤ 9

namespace Directive

theorem inRange_act (entry : Style) {style : Style} (h : style.InRange) (directive : Directive) :
    (act entry style directive).InRange := by
  obtain ⟨hunderline, hsize⟩ := h
  have hmax : Style.maxUnderline.toNat = 3 := rfl
  cases directive with
  | underline =>
      refine ⟨?_, hsize⟩
      simp only [act]
      split
      · rename_i hlt
        rw [UInt8.lt_iff_toNat_lt] at hlt
        rw [UInt8.le_iff_toNat_le, UInt8.toNat_add]
        simp only [UInt8.reduceToNat]
        omega
      · exact UInt8.le_refl _
  | plain => exact ⟨UInt8.le_iff_toNat_le.2 (Nat.zero_le _), hsize⟩
  | size digit =>
      refine ⟨hunderline, ?_⟩
      have hdigit := digit.isLt
      rw [UInt8.le_iff_toNat_le]
      simp only [act, UInt8.toNat_ofNat', UInt8.reduceToNat]
      omega
  | bold => exact ⟨hunderline, hsize⟩
  | emphasis => exact ⟨hunderline, hsize⟩
  | italic => exact ⟨hunderline, hsize⟩
  | strike => exact ⟨hunderline, hsize⟩
  | literal => exact ⟨hunderline, hsize⟩
  | color named => exact ⟨hunderline, hsize⟩

/-- One way to write the directive; the default color has none. -/
def piece : Directive → String
  | bold => "B"
  | emphasis => "Em"
  | italic => "I"
  | strike => "S"
  | literal => "TT"
  | underline => "U"
  | plain => "PL"
  | size digit => toString digit.val
  | .color named => named.tag?.getD ""

theorem ofPiece?_piece {directive : Directive} (h : directive ≠ .color .default) :
    ofPiece? directive.piece = some directive := by
  cases directive with
  | size digit =>
      revert digit
      decide
  | color named =>
      cases named with
      | default => exact absurd rfl h
      | _ => rfl
  | _ => rfl

theorem piece_ne_empty {directive : Directive} (h : directive ≠ .color .default) :
    directive.piece ≠ "" := by
  intro hempty
  have hread := ofPiece?_piece h
  have hnone : ofPiece? "" = none := rfl
  rw [hempty, hnone] at hread
  cases hread

theorem all_isAlphanum_piece (directive : Directive) :
    directive.piece.toList.all Char.isAlphanum = true := by
  cases directive with
  | size digit =>
      revert digit
      decide
  | color named => cases named <;> rfl
  | _ => rfl

theorem isAlphanum_of_mem_piece {directive : Directive} {c : Char}
    (h : c ∈ directive.piece.toList) : c.isAlphanum = true :=
  List.all_eq_true.1 directive.all_isAlphanum_piece c h

/-- The directive, if it is asked for. -/
def ifAsked (asked : Bool) (directive : Directive) : List Directive :=
  if asked then [directive] else []

/-- Each underline takes the level up by one as long as the highest is not exceeded. -/
theorem foldl_underline (entry : Style) {style : Style} (h : style.underline = 0) {level : Nat}
    (hlevel : level ≤ 3) :
    (List.replicate level underline).foldl (act entry) style =
      { style with underline := UInt8.ofNat level } := by
  induction level with
  | zero =>
      have hzero : UInt8.ofNat 0 = style.underline := h.symm
      rw [hzero]
      rfl
  | succ level ih =>
      have hlt : UInt8.ofNat level < Style.maxUnderline := by
        rw [UInt8.lt_iff_toNat_lt, UInt8.toNat_ofNat']
        have hmax : Style.maxUnderline.toNat = 3 := rfl
        omega
      rw [List.replicate_succ', List.foldl_append, ih (by omega)]
      simp [act, hlt, UInt8.ofNat_add]

end Directive

namespace TagContent

theorem directives?_map_piece {directives : List Directive}
    (h : ∀ directive ∈ directives, directive ≠ .color .default) :
    directives? (directives.map Directive.piece) = .ok directives := by
  induction directives with
  | nil => rfl
  | cons directive rest ih =>
      obtain ⟨hdirective, hrest⟩ := List.forall_mem_cons.1 h
      rw [List.map_cons, directives?, Directive.ofPiece?_piece hdirective, ih hrest]
      rfl

/-- The content of a tag with the given directives. -/
def spell (directives : List Directive) : String :=
  " ".intercalate (directives.map Directive.piece)

/-- Directives that are spelled out are read again. -/
theorem read_spell {directives : List Directive} (hne : directives ≠ [])
    (h : ∀ directive ∈ directives, directive ≠ .color .default) :
    read (spell directives) = .ok directives := by
  have hpieces : pieces (spell directives) = directives.map Directive.piece := by
    refine Words.split_intercalate_of (by decide) fun word hword => ?_
    obtain ⟨directive, hdirective, rfl⟩ := List.mem_map.1 hword
    refine ⟨Directive.piece_ne_empty (h directive hdirective), fun c hc => ?_⟩
    have halpha := Directive.isAlphanum_of_mem_piece hc
    refine beq_false_of_ne fun hspace => ?_
    subst hspace
    exact absurd halpha (by decide)
  obtain ⟨first, rest, rfl⟩ := List.exists_cons_of_ne_nil hne
  rw [read, hpieces, List.map_cons]
  exact directives?_map_piece h

theorem mem_spell {directives : List Directive} {c : Char} (h : c ∈ (spell directives).toList) :
    c = ' ' ∨ c.isAlphanum = true := by
  rcases Words.mem_intercalate h with hspace | ⟨word, hword, hc⟩
  · exact .inl hspace
  · obtain ⟨directive, -, rfl⟩ := List.mem_map.1 hword
    exact .inr (Directive.isAlphanum_of_mem_piece hc)

theorem spell_ne_empty {directives : List Directive} (hne : directives ≠ [])
    (h : ∀ directive ∈ directives, directive ≠ .color .default) : spell directives ≠ "" := by
  intro hempty
  have hread := read_spell hne h
  rw [hempty] at hread
  exact absurd hread (by simp [read, pieces])

/-- A tag that is spelled out is read back as an opening tag. -/
theorem legible_spell {directives : List Directive} (hne : directives ≠ [])
    (h : ∀ directive ∈ directives, directive ≠ .color .default) :
    (Token.opening (spell directives)).Legible := by
  refine ⟨spell_ne_empty hne h, fun hslash => ?_, fun c hc => ?_⟩
  · obtain ⟨rest, hrest⟩ := List.head?_eq_some_iff.1 hslash
    rcases mem_spell (hrest ▸ List.mem_cons_self) with hspace | halpha
    · exact absurd hspace (by decide)
    · exact absurd halpha (by decide)
  · refine bne_iff_ne.2 fun hclose => ?_
    subst hclose
    rcases mem_spell hc with hspace | halpha
    · exact absurd hspace (by decide)
    · exact absurd halpha (by decide)

end TagContent

namespace Style

open Directive (ifAsked)

/-- The attributes that are on. -/
def switches (style : Style) : List Directive :=
  ifAsked style.bold .bold ++ ifAsked style.emphasis .emphasis ++ ifAsked style.italic .italic ++
    ifAsked style.strike .strike ++ ifAsked style.literal .literal

/-- The directives that lead to the style from outside all tags. -/
def directives (style : Style) : List Directive :=
  style.switches ++ List.replicate style.underline.toNat .underline ++
    .size (Fin.ofNat 10 style.size.toNat) ::
      ifAsked (style.color != .default) (.color style.color)

theorem directives_ne_nil (style : Style) : style.directives ≠ [] := by
  simp [directives]

theorem foldl_switches (style : Style) :
    style.switches.foldl (Directive.act .initial) .initial =
      { style with underline := 0, size := 0, color := .default } := by
  obtain ⟨bold, emphasis, italic, strike, literal, underline, size, color⟩ := style
  cases bold <;> cases emphasis <;> cases italic <;> cases strike <;> cases literal <;> rfl

theorem foldl_directives {style : Style} (h : style.InRange) :
    style.directives.foldl (Directive.act .initial) .initial = style := by
  have hunderline : style.underline.toNat ≤ 3 := UInt8.le_iff_toNat_le.1 h.underline
  have hsize : style.size.toNat ≤ 9 := UInt8.le_iff_toNat_le.1 h.size
  have hdigit : UInt8.ofNat (style.size.toNat % 10) = style.size := by
    rw [Nat.mod_eq_of_lt (by omega), UInt8.ofNat_toNat]
  rw [directives, List.foldl_append, List.foldl_append, foldl_switches,
    Directive.foldl_underline _ rfl hunderline, UInt8.ofNat_toNat, List.foldl_cons]
  by_cases hcolor : style.color = .default
  · simp [ifAsked, Directive.act, hdigit, ← hcolor]
  · simp [ifAsked, Directive.act, hdigit, hcolor]

theorem ne_of_mem_directives {style : Style} :
    ∀ directive ∈ style.directives, directive ≠ .color .default := by
  rintro directive h rfl
  by_cases hcolor : style.color = .default
  · simp [directives, switches, ifAsked, hcolor] at h
  · simp [directives, switches, ifAsked, hcolor, Ne.symm hcolor] at h

/-- The style is reached by one tag that is opened outside all others. -/
theorem apply_initial_spell {style : Style} (h : style.InRange) :
    Style.initial.apply (TagContent.spell style.directives) = .ok style := by
  rw [apply, TagContent.read_spell style.directives_ne_nil ne_of_mem_directives]
  exact congrArg Except.ok (foldl_directives h)

/-- No tag leads out of the range. -/
theorem InRange.apply {style next : Style} (h : style.InRange) {content : String}
    (hnext : style.apply content = .ok next) : next.InRange := by
  cases hread : TagContent.read content with
  | error unknown => simp [Style.apply, hread, Except.map] at hnext
  | ok directives =>
      simp only [Style.apply, hread, Except.map, Except.ok.injEq] at hnext
      rw [← hnext]
      exact List.foldlRecOn directives _ h fun reached hreached directive _ =>
        Directive.inRange_act style hreached directive

end Style

end StyledMarkup
