import Mathlib.Data.List.DropRight
import StyledMarkup.Proofs.UnknownTags

/-!
# What a tag comes to

The directives of a tag act one after the other, and each may undo what was done before it.
What they come to in the end can be read off the pieces of the tag without following them.
`PL` wipes out the decoration so far, so of decoration only the pieces behind the last `PL`
count. Italic, size and color are out of its reach: one `I` anywhere is enough, and of sizes
and colors the last one stays. Underlines are counted, up to the level at which they end.

Emphasis looks at the style in which the tag began. The style that the directives act on and
the style that they toggle are told apart here, since in a tag that is cut in two the second
part begins with what the first has made.
-/
namespace StyledMarkup

namespace Directive

/-- The digit of a size. -/
def digit : Directive → Option (Fin 10)
  | size digit => some digit
  | _ => none

/-- The color that is asked for. -/
def named : Directive → Option Color
  | .color named => some named
  | _ => none

theorem digit?_of_mem_spellings {piece : String} {directive : Directive}
    (h : piece ∈ directive.spellings) : digit? piece = directive.digit := by
  cases directive with
  | size digit =>
      obtain rfl := List.mem_singleton.1 h
      revert digit
      decide
  | color named =>
      have htag : named.tag? = some piece := Option.mem_toList.1 h
      cases named <;> simp only [Color.tag?, Option.some.injEq, reduceCtorEq] at htag <;>
        subst htag <;> rfl
  | _ =>
      revert piece
      decide

theorem ofTag?_of_mem_spellings {piece : String} {directive : Directive}
    (h : piece ∈ directive.spellings) : Color.ofTag? piece = directive.named := by
  cases directive with
  | size digit =>
      obtain rfl := List.mem_singleton.1 h
      revert digit
      decide
  | color named => exact Color.ofTag?_tag (Option.mem_toList.1 h)
  | _ =>
      revert piece
      decide

/-- The pieces that name an attribute. -/
def names : List String := ["B", "EM", "Em", "I", "S", "TT", "U", "PL"]

theorem ne_size : ∀ digit : Fin 10, ∀ name ∈ names, name ≠ toString digit.val := by
  decide

theorem ne_colorTag {color : Color} {tag : String} (h : color.tag? = some tag) :
    ∀ name ∈ names, name ≠ tag := by
  cases color <;> simp only [Color.tag?, Option.some.injEq, reduceCtorEq] at h <;> subst h <;>
    decide

/-- The level is raised by one and held at the highest, also if it was above that. -/
theorem act_underline (entry style : Style) :
    act entry style underline =
      { style with underline := UInt8.ofNat (min (style.underline.toNat + 1) 3) } := by
  have hmax : Style.maxUnderline.toNat = 3 := rfl
  have hlevel : (if style.underline < Style.maxUnderline then style.underline + 1
      else Style.maxUnderline) = UInt8.ofNat (min (style.underline.toNat + 1) 3) := by
    apply UInt8.toNat_inj.1
    rw [UInt8.toNat_ofNat']
    by_cases hlt : style.underline < Style.maxUnderline
    · rw [if_pos hlt, UInt8.toNat_add]
      rw [UInt8.lt_iff_toNat_lt] at hlt
      simp only [UInt8.reduceToNat]
      omega
    · rw [if_neg hlt]
      rw [UInt8.lt_iff_toNat_lt] at hlt
      omega
  rw [act, hlevel]

end Directive

namespace TagContent

open Directive (act)

/-- The pieces behind the last `PL`; all of them if there is none. -/
def afterPlain (pieces : List String) : List String := pieces.rtakeWhile fun piece => piece != "PL"

/-- The style without the decoration that a `PL` among the pieces takes away. -/
def ground (style : Style) (pieces : List String) : Style :=
  if "PL" ∈ pieces then
    { style with
      underline := 0, bold := false, emphasis := false, strike := false, literal := false }
  else style

/-- The level that some underlines lead to. Without any it stays, even beyond the highest. -/
def underlined (level : UInt8) (count : Nat) : UInt8 :=
  if count = 0 then level else UInt8.ofNat (min (level.toNat + count) 3)

/-- What the pieces make of a style, in a tag that began in the style `entry`. -/
def outcome (entry style : Style) (pieces : List String) : Style :=
  let late := afterPlain pieces
  let base := ground style pieces
  { bold := base.bold || decide ("B" ∈ late)
    emphasis := if "EM" ∈ late ∨ "Em" ∈ late then !entry.emphasis else base.emphasis
    italic := style.italic || decide ("I" ∈ pieces)
    strike := base.strike || decide ("S" ∈ late)
    literal := base.literal || decide ("TT" ∈ late)
    underline := underlined base.underline (late.count "U")
    size := (pieces.reverse.findSome? Directive.digit?).elim style.size fun digit =>
      UInt8.ofNat digit.val
    color := (pieces.reverse.findSome? Color.ofTag?).getD style.color }

theorem afterPlain_concat {piece : String} (h : "PL" ≠ piece) (pieces : List String) :
    afterPlain (pieces ++ [piece]) = afterPlain pieces ++ [piece] := by
  rw [afterPlain, List.rtakeWhile_concat, if_pos (by simpa using h.symm)]
  rfl

theorem afterPlain_concat_plain (pieces : List String) : afterPlain (pieces ++ ["PL"]) = [] := by
  rw [afterPlain, List.rtakeWhile_concat, if_neg (by simp)]

theorem ground_concat {piece : String} (h : "PL" ≠ piece) (style : Style) (pieces : List String) :
    ground style (pieces ++ [piece]) = ground style pieces := by
  simp [ground, h]

theorem underlined_succ (level : UInt8) (count : Nat) :
    underlined level (count + 1) =
      UInt8.ofNat (min ((underlined level count).toNat + 1) 3) := by
  unfold underlined
  by_cases hzero : count = 0
  · rw [if_pos hzero, if_neg (by omega), hzero]
  · rw [if_neg hzero, if_neg (by omega)]
    apply UInt8.toNat_inj.1
    simp only [UInt8.toNat_ofNat']
    omega

/-- A piece that names no attribute has no part in anything but size and color. -/
theorem outcome_concat_of_ne (entry style : Style) (pieces : List String) {piece : String}
    (h : ∀ name ∈ Directive.names, name ≠ piece) :
    outcome entry style (pieces ++ [piece]) =
      { outcome entry style pieces with
        size := (Directive.digit? piece).elim (outcome entry style pieces).size fun digit =>
          UInt8.ofNat digit.val
        color := (Color.ofTag? piece).getD (outcome entry style pieces).color } := by
  simp only [Directive.names, List.forall_mem_cons] at h
  obtain ⟨hB, hEM, hEm, hI, hS, hTT, hU, hPL, -⟩ := h
  simp only [outcome, afterPlain_concat hPL, ground_concat hPL, List.reverse_concat,
    List.findSome?_cons]
  cases Directive.digit? piece <;> cases Color.ofTag? piece <;>
    simp [hB, hEM, hEm, hI, hS, hTT, hU.symm]

/-- One more piece acts on what the pieces before it have made. -/
theorem outcome_concat (entry style : Style) (pieces : List String) {piece : String}
    {directive : Directive} (h : piece ∈ directive.spellings) :
    outcome entry style (pieces ++ [piece]) = act entry (outcome entry style pieces) directive := by
  have hdigit := Directive.digit?_of_mem_spellings h
  have hnamed := Directive.ofTag?_of_mem_spellings h
  cases directive with
  | bold | italic | strike | literal =>
      obtain rfl := List.mem_singleton.1 h
      simp [outcome, afterPlain_concat, ground_concat, act, hdigit, hnamed, Directive.digit,
        Directive.named]
  | emphasis =>
      have hpiece : piece = "EM" ∨ piece = "Em" := by simpa [Directive.spellings] using h
      rcases hpiece with rfl | rfl <;>
        simp [outcome, afterPlain_concat, ground_concat, act, hdigit, hnamed, Directive.digit,
          Directive.named]
  | underline =>
      obtain rfl := List.mem_singleton.1 h
      simp [outcome, afterPlain_concat, ground_concat, Directive.act_underline, hdigit, hnamed,
        Directive.digit, Directive.named, underlined_succ]
  | plain =>
      obtain rfl := List.mem_singleton.1 h
      simp [outcome, afterPlain_concat_plain, ground, act, hdigit, hnamed, Directive.digit,
        Directive.named, underlined]
  | size digit =>
      obtain rfl := List.mem_singleton.1 h
      rw [outcome_concat_of_ne entry style pieces (Directive.ne_size digit), hdigit, hnamed]
      rfl
  | color named =>
      have htag : named.tag? = some piece := Option.mem_toList.1 h
      rw [outcome_concat_of_ne entry style pieces (Directive.ne_colorTag htag), hdigit, hnamed]
      rfl

/-- The style in which the tag began has a part in nothing but emphasis. -/
theorem outcome_congr (entry other style : Style) (pieces : List String) :
    { outcome entry style pieces with emphasis := (outcome other style pieces).emphasis } =
      outcome other style pieces := rfl

theorem outcome_nil (entry style : Style) : outcome entry style [] = style := by
  simp [outcome, afterPlain, ground, underlined]

theorem directives?_eq_ok_iff {pieces : List String} {directives : List Directive} :
    directives? pieces = .ok directives ↔
      pieces.map Directive.ofPiece? = directives.map some := by
  induction pieces generalizing directives with
  | nil => cases directives <;> simp [directives?]
  | cons piece rest ih =>
      rw [directives?, List.map_cons]
      cases Directive.ofPiece? piece with
      | none => cases directives <;> simp
      | some directive =>
          cases directives with
          | nil => cases directives? rest <;> simp [Except.map]
          | cons first others =>
              rw [List.map_cons, List.cons.injEq, Option.some.injEq, ← ih]
              cases directives? rest <;> simp [Except.map]

/-- The directives of some pieces come to what the pieces say. -/
theorem foldl_act {pieces : List String} {directives : List Directive}
    (h : directives? pieces = .ok directives) (entry style : Style) :
    directives.foldl (act entry) style = outcome entry style pieces := by
  -- From the last piece, since it is the one that no other piece can undo.
  induction pieces using List.reverseRecOn generalizing directives with
  | nil =>
      cases h
      exact (outcome_nil entry style).symm
  | append_singleton pieces piece ih =>
      rw [directives?_eq_ok_iff, List.map_append] at h
      obtain ⟨earlier, last, rfl, hearlier, hlast⟩ := List.map_eq_append_iff.1 h.symm
      obtain ⟨directive, rfl, hpiece⟩ := List.map_eq_singleton_iff.1 hlast
      have hspelt := Directive.mem_spellings_of_ofPiece? hpiece.symm
      rw [List.foldl_append, ih (directives?_eq_ok_iff.2 hearlier.symm),
        outcome_concat entry style pieces hspelt]
      rfl

theorem read_eq_ok_iff {content : String} {directives : List Directive} :
    read content = .ok directives ↔
      pieces content ≠ [] ∧ directives? (pieces content) = .ok directives := by
  unfold read
  split
  · rename_i hblank
    simp [hblank]
  · rename_i piece rest hpieces
    simp [hpieces]

theorem exists_read_of_isKnown {content : String} (h : IsKnown content) :
    ∃ directives, read content = .ok directives := by
  cases hread : read content with
  | ok directives => exact ⟨directives, rfl⟩
  | error unknown =>
      have hblame := read_eq_error_iff.1 hread
      rw [blame?_eq_none_iff.2 h] at hblame
      cases hblame

/-- The space between two contents is no piece. -/
theorem pieces_append (first second : String) :
    pieces (first ++ " " ++ second) = pieces first ++ pieces second := by
  have hspace : " " = String.singleton ' ' := by decide
  rw [hspace]
  exact Words.split_append_separator (· == ' ') first second (by decide)

theorem read_joined {first second : String} {earlier later : List Directive}
    (hfirst : read first = .ok earlier) (hsecond : read second = .ok later) :
    read (first ++ " " ++ second) = .ok (earlier ++ later) := by
  rw [read_eq_ok_iff, directives?_eq_ok_iff] at hfirst hsecond ⊢
  rw [pieces_append, List.map_append, List.map_append, hfirst.2, hsecond.2]
  exact ⟨List.append_ne_nil_of_left_ne_nil hfirst.1 _, rfl⟩

end TagContent

namespace Style

open TagContent

theorem apply_of_read {content : String} {directives : List Directive}
    (h : read content = .ok directives) (style : Style) :
    style.apply content = .ok (outcome style style (pieces content)) := by
  rw [apply, h]
  exact congrArg Except.ok (foldl_act (read_eq_ok_iff.1 h).2 style style)

theorem exists_read_of_apply {style next : Style} {content : String}
    (h : style.apply content = .ok next) : ∃ directives, read content = .ok directives := by
  cases hread : read content with
  | ok directives => exact ⟨directives, rfl⟩
  | error unknown => simp [apply, hread, Except.map] at h

/-- A tag of known pieces can be applied to every style, and what it comes to is said by its
pieces: by those behind the last `PL` for all decoration but the italic, and by all of them
for italic, size and color. -/
theorem apply_eq_outcome (style : Style) {content : String} (h : IsKnown content) :
    style.apply content = .ok (outcome style style (pieces content)) := by
  obtain ⟨directives, hread⟩ := exists_read_of_isKnown h
  exact apply_of_read hread style

/-- All decoration, a level of underline that tags do not reach and a size of two digits. -/
def overdone : Style :=
  { bold := true, emphasis := true, strike := true, literal := true, underline := 200, size := 77,
    color := .white }

/-- Emphasis that is asked for behind `PL` is turned off here, since it was on before the tag. -/
theorem apply_overdone :
    IsKnown " U EM r PL  U Em 3 TT U I k 7 " ∧
      overdone.apply " U EM r PL  U Em 3 TT U I k 7 " =
        .ok { italic := true, literal := true, underline := 2, size := 7, color := .black } ∧
      IsKnown "I  U 4 w" ∧
      overdone.apply "I  U 4 w" = .ok { overdone with italic := true, underline := 3, size := 4 } := by
  have hreset : IsKnown " U EM r PL  U Em 3 TT U I k 7 " := by
    constructor <;> decide +kernel
  have hkept : IsKnown "I  U 4 w" := by
    constructor <;> decide +kernel
  refine ⟨hreset, ?_, hkept, ?_⟩
  · rw [apply_eq_outcome overdone hreset]
    decide +kernel
  · rw [apply_eq_outcome overdone hkept]
    decide +kernel

/-- One tag with two contents, against a tag with the second inside a tag with the first. Both
lead to the same style, emphasis apart. They differ in emphasis if the second content asks for
it behind its last `PL` and the first has changed it: the one tag toggles what was there before
it, and the inner tag toggles what the outer one has made. -/
theorem apply_joined {style middle : Style} {first : String}
    (hfirst : style.apply first = .ok middle) {other last : Style} {second : String}
    (hsecond : other.apply second = .ok last) :
    ∃ joined nested, style.apply (first ++ " " ++ second) = .ok joined ∧
      middle.apply second = .ok nested ∧
      { joined with emphasis := nested.emphasis } = nested ∧
      (joined.emphasis ≠ nested.emphasis ↔
        ("EM" ∈ afterPlain (pieces second) ∨ "Em" ∈ afterPlain (pieces second)) ∧
          middle.emphasis ≠ style.emphasis) := by
  obtain ⟨earlier, hearlier⟩ := exists_read_of_apply hfirst
  obtain ⟨later, hlater⟩ := exists_read_of_apply hsecond
  have hmiddle : earlier.foldl (Directive.act style) style = middle := by
    rw [apply, hearlier] at hfirst
    exact Except.ok.inj hfirst
  have hjoined : style.apply (first ++ " " ++ second) =
      .ok (outcome style middle (pieces second)) := by
    rw [apply, read_joined hearlier hlater, Except.map, List.foldl_append, hmiddle,
      foldl_act (read_eq_ok_iff.1 hlater).2]
  refine ⟨outcome style middle (pieces second), outcome middle middle (pieces second), hjoined,
    apply_of_read hlater middle, outcome_congr style middle middle (pieces second), ?_⟩
  by_cases hasked : "EM" ∈ afterPlain (pieces second) ∨ "Em" ∈ afterPlain (pieces second)
  · simp [outcome, hasked, eq_comm]
  · simp [outcome, hasked]

theorem apply_joined_overdone :
    Style.initial.apply "B Em U" = .ok { bold := true, emphasis := true, underline := 1 } ∧
      overdone.apply "Em PL r EM" = .ok { color := .red, size := 77 } ∧
      ∃ joined nested, Style.initial.apply "B Em U Em PL r EM" = .ok joined ∧
        Style.apply { bold := true, emphasis := true, underline := 1 } "Em PL r EM" = .ok nested ∧
        { joined with emphasis := nested.emphasis } = nested ∧
        joined.emphasis ≠ nested.emphasis := by
  have hfirst : Style.initial.apply "B Em U" =
      .ok { bold := true, emphasis := true, underline := 1 } := by decide +kernel
  have hsecond : overdone.apply "Em PL r EM" = .ok { color := .red, size := 77 } := by
    decide +kernel
  obtain ⟨joined, nested, hjoined, hnested, hrest, hemphasis⟩ := apply_joined hfirst hsecond
  exact ⟨hfirst, hsecond, joined, nested, hjoined, hnested, hrest,
    hemphasis.2 ⟨by decide +kernel, by decide⟩⟩

end Style

end StyledMarkup
