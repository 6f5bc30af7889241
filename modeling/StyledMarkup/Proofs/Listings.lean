import StyledMarkup.Proofs.ReadableDocuments
import StyledMarkup.Rendering

/-!
# Documents read off their listing

A listing writes words as they are, with nothing to mark a comma, a bracket or a brace that
belongs to a word. Still no two documents have the same listing, as long as they were read
from markup and no text in them is literal. A word has no line feed in it, so a line is a run;
it has no space in it, so a space is behind the comma that ends a word; and the style in front
has always the same length.

Literal text keeps its white space and may look like lines of its own.
-/
namespace StyledMarkup

section Separators

/-- The first mark ends what stands before it. -/
theorem eq_of_append_cons {mark : Char} {a b x y : List Char} (ha : mark ∉ a) (hb : mark ∉ b)
    (h : a ++ mark :: x = b ++ mark :: y) : a = b ∧ x = y := by
  induction a generalizing b with
  | nil =>
      cases b with
      | nil => exact ⟨rfl, List.tail_eq_of_cons_eq h⟩
      | cons c b => exact absurd (List.head_eq_of_cons_eq h ▸ List.mem_cons_self) hb
  | cons c a ih =>
      cases b with
      | nil => exact absurd (List.head_eq_of_cons_eq h ▸ List.mem_cons_self) ha
      | cons d b =>
          rw [List.mem_cons, not_or] at ha hb
          obtain ⟨hhead, htail⟩ := List.cons.inj h
          obtain ⟨hfront, hback⟩ := ih ha.2 hb.2 htail
          exact ⟨by rw [hhead, hfront], hback⟩

variable {α : Type} {P : α → Prop} {line : α → String}

/-- Lines that say what they stand for, each with a line feed behind it and none inside. -/
theorem eq_of_join_lines (hline : ∀ x, P x → '\n' ∉ (line x).toList)
    (hinj : ∀ x y, P x → P y → line x = line y → x = y) {xs ys : List α}
    (hxs : ∀ x ∈ xs, P x) (hys : ∀ y ∈ ys, P y)
    (h : String.join (xs.map fun x => line x ++ "\n") =
      String.join (ys.map fun y => line y ++ "\n")) : xs = ys := by
  induction xs generalizing ys with
  | nil =>
      cases ys with
      | nil => rfl
      | cons y ys => simp at h
  | cons x xs ih =>
      cases ys with
      | nil => simp at h
      | cons y ys =>
          obtain ⟨hx, hxs⟩ := List.forall_mem_cons.1 hxs
          obtain ⟨hy, hys⟩ := List.forall_mem_cons.1 hys
          have hchars := congrArg String.toList h
          simp only [List.map_cons, String.join_cons, String.toList_append, List.append_assoc] at hchars
          obtain ⟨hfirst, hrest⟩ := eq_of_append_cons (hline x hx) (hline y hy) hchars
          rw [hinj x y hx hy (String.toList_inj.1 hfirst), ih hxs hys (String.toList_inj.1 hrest)]

theorem toList_intercalate_comma (word next : String) (rest : List String) :
    (", ".intercalate (word :: next :: rest)).toList =
      (word.toList ++ [',']) ++ ' ' :: (", ".intercalate (next :: rest)).toList := by
  rw [String.intercalate_cons_of_ne_nil (List.cons_ne_nil next rest)]
  simp

/-- One word cannot be two, which have a space between them. -/
theorem ne_intercalate_comma {word : String} (h : ' ' ∉ word.toList) (first second : String)
    (rest : List String) : word ≠ ", ".intercalate (first :: second :: rest) := by
  rintro rfl
  apply h
  rw [toList_intercalate_comma]
  simp

/-- Words without a space come back from the text in which a comma and a space divide them. -/
theorem eq_of_intercalate_comma {a b : List String} (hane : a ≠ []) (hbne : b ≠ [])
    (ha : ∀ word ∈ a, ' ' ∉ word.toList) (hb : ∀ word ∈ b, ' ' ∉ word.toList)
    (h : ", ".intercalate a = ", ".intercalate b) : a = b := by
  induction a generalizing b with
  | nil => exact absurd rfl hane
  | cons word rest ih =>
      cases b with
      | nil => exact absurd rfl hbne
      | cons other others =>
          obtain ⟨hword, harest⟩ := List.forall_mem_cons.1 ha
          obtain ⟨hother, hbrest⟩ := List.forall_mem_cons.1 hb
          cases rest with
          | nil =>
              rw [String.intercalate_singleton] at h
              cases others with
              | nil => rw [h, String.intercalate_singleton]
              | cons third others => exact absurd h (ne_intercalate_comma hword _ _ _)
          | cons second rest =>
              cases others with
              | nil =>
                  rw [String.intercalate_singleton] at h
                  exact absurd h.symm (ne_intercalate_comma hother _ _ _)
              | cons third others =>
                  have hchars := congrArg String.toList h
                  rw [toList_intercalate_comma, toList_intercalate_comma] at hchars
                  obtain ⟨hfirst, hrest⟩ :=
                    eq_of_append_cons (by simpa using hword) (by simpa using hother) hchars
                  have hsame : word = other :=
                    String.toList_inj.1 (List.append_singleton_inj.1 hfirst).1
                  rw [hsame, ih (List.cons_ne_nil _ _) (List.cons_ne_nil _ _) harest hbrest
                    (String.toList_inj.1 hrest)]

end Separators

namespace Style

theorem flag_inj {letter : Char} (h : letter.toLower ≠ letter) {a b : Bool} :
    flag a letter = flag b letter ↔ a = b := by
  cases a <;> cases b <;> simp [flag, h, h.symm]

theorem underlineMark_inj {a b : UInt8} (ha : a ≤ maxUnderline) (hb : b ≤ maxUnderline)
    (h : underlineMark a = underlineMark b) : a = b := by
  have hdistinct : ∀ m n : Fin 4,
      underlineMark (UInt8.ofNat m.val) = underlineMark (UInt8.ofNat n.val) → m = n := by decide
  have hmax : maxUnderline.toNat = 3 := rfl
  rw [UInt8.le_iff_toNat_le] at ha hb
  have hsame := hdistinct ⟨a.toNat, by omega⟩ ⟨b.toNat, by omega⟩ (by simpa using h)
  exact UInt8.toNat_inj.1 (Fin.mk.inj hsame)

theorem letter_inj {a b : Color} (h : a.letter = b.letter) : a = b := by
  have hdistinct : ∀ a ∈ Color.all, ∀ b ∈ Color.all, a.letter = b.letter → a = b := by decide
  exact hdistinct a a.mem_all b b.mem_all h

/-- A size that tags reach is one digit. -/
theorem InRange.exists_digit {style : Style} (h : style.InRange) :
    ∃ digit : Fin 10, style.size.toNat = digit.val := by
  have hsize : style.size.toNat ≤ 9 := UInt8.le_iff_toNat_le.1 h.size
  exact ⟨⟨style.size.toNat, by omega⟩, rfl⟩

theorem length_size : ∀ size : Fin 10, (toString size.val).toList.length = 1 := by
  decide

theorem toString_size_inj : ∀ a b : Fin 10, toString a.val = toString b.val → a = b := by
  decide

theorem toList_shortForm (style : Style) :
    style.shortForm.toList =
      [flag style.bold 'B', flag style.emphasis 'E', flag style.italic 'I',
        flag style.strike 'S', flag style.literal 'T', underlineMark style.underline] ++
      (toString style.size.toNat).toList ++ [style.color.letter] := by
  simp [shortForm]

theorem length_shortForm {style : Style} (h : style.InRange) :
    style.shortForm.toList.length = 8 := by
  obtain ⟨digit, hdigit⟩ := h.exists_digit
  rw [toList_shortForm, hdigit, List.length_append, List.length_append, length_size]
  rfl

theorem eq_of_shortForm {a b : Style} (ha : a.InRange) (hb : b.InRange)
    (h : a.shortForm = b.shortForm) : a = b := by
  obtain ⟨m, hm⟩ := ha.exists_digit
  obtain ⟨n, hn⟩ := hb.exists_digit
  have hchars := congrArg String.toList h
  rw [toList_shortForm, toList_shortForm, hm, hn] at hchars
  obtain ⟨hfront, hletter⟩ := List.append_singleton_inj.1 hchars
  obtain ⟨hmarks, hdigits⟩ := List.append_inj hfront rfl
  have hdigit := toString_size_inj m n (String.toList_inj.1 hdigits)
  simp only [List.cons.injEq] at hmarks
  obtain ⟨hbold, hemphasis, hitalic, hstrike, hliteral, hunderline, -⟩ := hmarks
  rw [flag_inj (by decide)] at hbold hemphasis hitalic hstrike hliteral
  have hlevel := underlineMark_inj ha.underline hb.underline hunderline
  have hsize : a.size = b.size := UInt8.toNat_inj.1 (by rw [hm, hn, hdigit])
  have hcolor := letter_inj hletter
  cases a
  cases b
  simp_all

theorem newline_ne_flag {letter : Char} (h : '\n' ≠ letter) (hlower : '\n' ≠ letter.toLower)
    (on : Bool) : '\n' ≠ flag on letter := by
  cases on
  · exact hlower
  · exact h

theorem newline_ne_underlineMark (level : UInt8) : '\n' ≠ underlineMark level := by
  unfold underlineMark
  split_ifs <;> decide

theorem newline_ne_letter (color : Color) : '\n' ≠ color.letter := by
  cases color <;> decide

theorem newline_not_mem_size : ∀ size : Fin 10, '\n' ∉ (toString size.val).toList := by
  decide

theorem newline_not_mem_shortForm {style : Style} (h : style.InRange) :
    '\n' ∉ style.shortForm.toList := by
  obtain ⟨digit, hdigit⟩ := h.exists_digit
  rw [toList_shortForm, hdigit, List.mem_append, List.mem_append, not_or, not_or]
  refine ⟨⟨?_, newline_not_mem_size digit⟩, by simpa using newline_ne_letter style.color⟩
  simp only [List.mem_cons, List.not_mem_nil, or_false, not_or]
  refine ⟨?_, ?_, ?_, ?_, ?_, newline_ne_underlineMark style.underline⟩ <;>
    exact newline_ne_flag (by decide) (by decide) _

end Style

namespace Run

theorem toList_line (run : Run) :
    run.line.toList =
      '{' :: (run.style.shortForm.toList ++
        '}' :: ' ' :: '[' :: ((", ".intercalate run.words).toList ++ [']'])) := by
  simp [line]

/-- A run of words as reading leaves it. -/
structure IsListed (run : Run) : Prop where
  readable : run.IsReadable
  running : run.style.literal = false

theorem IsListed.words_ne_nil {run : Run} (h : run.IsListed) : run.words ≠ [] :=
  (h.readable.running h.running).1

theorem IsListed.not_mem_word {run : Run} (h : run.IsListed) {c : Char}
    (hc : isSeparator c = true) : ∀ word ∈ run.words, c ∉ word.toList := by
  intro word hword hmem
  have hplain := ((h.readable.running h.running).2 word hword).no_separator c hmem
  rw [hc] at hplain
  cases hplain

theorem IsListed.newline_not_mem_line {run : Run} (h : run.IsListed) :
    '\n' ∉ run.line.toList := by
  intro hmem
  rw [toList_line, List.mem_cons, List.mem_append] at hmem
  rcases hmem with hbrace | hshort | hrest
  · exact absurd hbrace (by decide)
  · exact Style.newline_not_mem_shortForm h.readable.inRange hshort
  · have hwords : '\n' ∈ (", ".intercalate run.words).toList := by simpa using hrest
    rcases Words.mem_of_mem_intercalate hwords with hcomma | ⟨word, hword, hinside⟩
    · exact absurd hcomma (by decide)
    · exact h.not_mem_word (by decide) word hword hinside

theorem IsListed.eq_of_line {a b : Run} (ha : a.IsListed) (hb : b.IsListed)
    (h : a.line = b.line) : a = b := by
  have hchars := congrArg String.toList h
  rw [toList_line, toList_line, List.cons.injEq] at hchars
  obtain ⟨hshort, hrest⟩ := List.append_inj hchars.2
    ((Style.length_shortForm ha.readable.inRange).trans
      (Style.length_shortForm hb.readable.inRange).symm)
  have hstyle := Style.eq_of_shortForm ha.readable.inRange hb.readable.inRange
    (String.toList_inj.1 hshort)
  simp only [List.cons.injEq, true_and, List.append_cancel_right_eq] at hrest
  have hwords := eq_of_intercalate_comma ha.words_ne_nil hb.words_ne_nil
    (ha.not_mem_word (by decide)) (hb.not_mem_word (by decide)) (String.toList_inj.1 hrest)
  cases a
  cases b
  exact congrArg₂ Run.mk hstyle hwords

end Run

namespace Document

/-- Documents without literal text that were read from markup, cut or not, are the same in
every field of every run if their listings are the same. -/
theorem eq_of_listing {first second : String} {a b : Document} {cutA cutB : Option Truncation}
    (ha : readMarkup first = .ok (a, cutA)) (hb : readMarkup second = .ok (b, cutB))
    (hrunningA : ∀ run ∈ a, run.style.literal = false)
    (hrunningB : ∀ run ∈ b, run.style.literal = false)
    (h : OutputFormat.simple.renderDocument a = OutputFormat.simple.renderDocument b) : a = b := by
  have hlistedA : ∀ run ∈ a, run.IsListed := fun run hrun =>
    ⟨(isReadable_of_readMarkup ha).runs run hrun, hrunningA run hrun⟩
  have hlistedB : ∀ run ∈ b, run.IsListed := fun run hrun =>
    ⟨(isReadable_of_readMarkup hb).runs run hrun, hrunningB run hrun⟩
  exact eq_of_join_lines (fun _ hrun => hrun.newline_not_mem_line)
    (fun _ _ hx hy => hx.eq_of_line hy) hlistedA hlistedB h

/-- Two ways to write words that hold commas, brackets, braces and a space of another kind. -/
theorem eq_of_listing_twoWays :
    ∃ a b cutA cutB, readMarkup "<B U k 4 U>a,  [b]</B>\x7d\u00a0x" = .ok (a, cutA) ∧
      readMarkup "<k><4 U><U><B>a,\n[b] </></></></> \x7d\u00a0x<" = .ok (b, cutB) ∧
      (∀ run ∈ a, run.style.literal = false) ∧ (∀ run ∈ b, run.style.literal = false) ∧
      OutputFormat.simple.renderDocument a = OutputFormat.simple.renderDocument b ∧ a = b := by
  let document : Document :=
    [⟨{ bold := true, underline := 2, size := 4, color := .black }, ["a,", "[b]"]⟩,
      ⟨{}, ["\x7d\u00a0x"]⟩]
  have ha : readMarkup "<B U k 4 U>a,  [b]</B>\x7d\u00a0x" = .ok (document, none) := by
    decide +kernel
  have hb : readMarkup "<k><4 U><U><B>a,\n[b] </></></></> \x7d\u00a0x<" =
      .ok (document, some ⟨38, .unterminatedTag⟩) := by
    decide +kernel
  have hrunning : ∀ run ∈ document, run.style.literal = false := by decide
  exact ⟨document, document, none, _, ha, hb, hrunning, hrunning, rfl,
    eq_of_listing ha hb hrunning hrunning rfl⟩

/-- Literal text may look like a line of its own. -/
example :
    let literal : Style := { literal := true }
    OutputFormat.simple.renderDocument [⟨literal, ["a]\n\x7bbeist|0_\x7d [b"]⟩] =
      OutputFormat.simple.renderDocument [⟨literal, ["a"]⟩, ⟨{}, ["b"]⟩] := by
  decide

end Document

end StyledMarkup
