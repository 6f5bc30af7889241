import StyledMarkup.Proofs.DroppedInput
import StyledMarkup.Proofs.Listings

/-!
# Tokens read off their listing

A text stands in a listing in quotes, which keep it on one line and determine it: every
escape begins with a backslash, and none is the beginning of another. The name of a tag
stands there as it is. It may hold line feeds, so a tag may take several lines, and a line of
a name may look like the line of another token. Apart from such names a listing determines
its tokens.

Where two listings agree and the tokens do not, the name of a tag in one of them goes on through
lines that belong to other tokens in the other. If both are listings of markup, these lines are
those of tokens that markup can hold, so the tag alone is listed as two tokens are.
-/
namespace StyledMarkup

section Numerals

theorem digitChar_inj : ∀ m n : Fin 16, m.val.digitChar = n.val.digitChar → m = n := by
  decide

theorem toDigits_inj {m n : Nat} (h : Nat.toDigits 16 m = Nat.toDigits 16 n) : m = n := by
  induction m using Nat.strong_induction_on generalizing n with
  | _ m ih =>
      have hbase : 1 < 16 := by decide
      rw [Nat.toDigits_eq_if (n := m) hbase, Nat.toDigits_eq_if (n := n) hbase] at h
      split_ifs at h with hm hn hn
      · have hdigit := digitChar_inj ⟨m, hm⟩ ⟨n, hn⟩ (List.singleton_inj.1 h)
        exact Fin.mk.inj hdigit
      · have hlength := congrArg List.length h
        have hfilled := Nat.length_toDigits_pos (b := 16) (n := n / 16)
        simp only [List.length_append, List.length_singleton] at hlength
        omega
      · have hlength := congrArg List.length h
        have hfilled := Nat.length_toDigits_pos (b := 16) (n := m / 16)
        simp only [List.length_append, List.length_singleton] at hlength
        omega
      · obtain ⟨hfront, hlast⟩ := List.append_singleton_inj.1 h
        have hquotient := ih (m / 16) (by omega) hfront
        have hdigit := digitChar_inj ⟨m % 16, by omega⟩ ⟨n % 16, by omega⟩ hlast
        have hremainder := Fin.mk.inj hdigit
        omega

theorem exists_of_mem_toDigits {n : Nat} {c : Char} (h : c ∈ Nat.toDigits 16 n) :
    ∃ digit : Fin 16, c = digit.val.digitChar := by
  induction n using Nat.strong_induction_on with
  | _ n ih =>
      rw [Nat.toDigits_eq_if (by decide)] at h
      split_ifs at h with hn
      · exact ⟨⟨n, hn⟩, List.mem_singleton.1 h⟩
      · rcases List.mem_append.1 h with h | h
        · exact ih (n / 16) (by omega) h
        · exact ⟨⟨n % 16, by omega⟩, List.mem_singleton.1 h⟩

end Numerals

namespace QuotedText

theorem not_mem_hexDigits {c : Char} (hc : ∀ digit : Fin 16, c ≠ digit.val.digitChar)
    (d : Char) : c ∉ hexDigits d := by
  intro hmem
  obtain ⟨digit, hdigit⟩ := exists_of_mem_toDigits hmem
  exact hc digit hdigit

theorem hexDigits_inj {c d : Char} (h : hexDigits c = hexDigits d) : c = d :=
  Char.toNat_inj.1 (toDigits_inj h)

/-- The characters that are escaped by a letter or by themselves, with what stands behind
the backslash. -/
def shortEscapes : List (Char × Char) :=
  [('"', '"'), ('\\', '\\'), ('\n', 'n'), ('\r', 'r'), ('\t', 't'), ('\x00', '0')]

/-- The three ways in which a character is written. -/
theorem escape_cases (c : Char) :
    (escape c = [c] ∧ c ≠ '\\' ∧ c ≠ '\n') ∨
      (∃ mark, escape c = ['\\', mark] ∧ (c, mark) ∈ shortEscapes) ∨
      escape c = '\\' :: 'u' :: '{' :: (hexDigits c ++ ['}']) := by
  unfold escape
  split_ifs with hquote hbackslash hfeed hreturn htab hnull hhidden
  · subst hquote
    exact .inr (.inl ⟨'"', rfl, by decide⟩)
  · subst hbackslash
    exact .inr (.inl ⟨'\\', rfl, by decide⟩)
  · subst hfeed
    exact .inr (.inl ⟨'n', rfl, by decide⟩)
  · subst hreturn
    exact .inr (.inl ⟨'r', rfl, by decide⟩)
  · subst htab
    exact .inr (.inl ⟨'t', rfl, by decide⟩)
  · subst hnull
    exact .inr (.inl ⟨'0', rfl, by decide⟩)
  · exact .inr (.inr rfl)
  · exact .inl ⟨rfl, hbackslash, hfeed⟩

theorem shortEscapes_inj : ∀ c ∈ shortEscapes, ∀ d ∈ shortEscapes, c.2 = d.2 → c.1 = d.1 := by
  decide

theorem ne_of_mem_shortEscapes : ∀ entry ∈ shortEscapes, entry.2 ≠ 'u' ∧ entry.2 ≠ '\n' := by
  decide

/-- What is written tells its first character, whatever follows. -/
theorem escape_append_inj {c d : Char} {x y : List Char} (h : escape c ++ x = escape d ++ y) :
    c = d ∧ x = y := by
  rcases escape_cases c with ⟨hc, hplain, -⟩ | ⟨mark, hc, hmark⟩ | hc <;>
    rcases escape_cases d with ⟨hd, hplain', -⟩ | ⟨mark', hd, hmark'⟩ | hd <;>
    rw [hc, hd] at h
  · exact List.cons.inj h
  · exact absurd (List.head_eq_of_cons_eq h) hplain
  · exact absurd (List.head_eq_of_cons_eq h) hplain
  · exact absurd (List.head_eq_of_cons_eq h).symm hplain'
  · obtain ⟨hsame, hrest⟩ := List.cons.inj (List.tail_eq_of_cons_eq h)
    exact ⟨shortEscapes_inj _ hmark _ hmark' hsame, hrest⟩
  · have hsame := List.head_eq_of_cons_eq (List.tail_eq_of_cons_eq h)
    exact absurd hsame (ne_of_mem_shortEscapes _ hmark).1
  · exact absurd (List.head_eq_of_cons_eq h).symm hplain'
  · have hsame := List.head_eq_of_cons_eq (List.tail_eq_of_cons_eq h)
    exact absurd hsame.symm (ne_of_mem_shortEscapes _ hmark').1
  · -- Both are numbers, which a brace ends.
    simp only [List.cons_append, List.cons.injEq, true_and, List.append_assoc,
      List.nil_append] at h
    have hbrace : ∀ digit : Fin 16, '}' ≠ digit.val.digitChar := by decide
    obtain ⟨hdigits, hrest⟩ :=
      eq_of_append_cons (not_mem_hexDigits hbrace c) (not_mem_hexDigits hbrace d) h
    exact ⟨hexDigits_inj hdigits, hrest⟩

theorem newline_not_mem_escape (c : Char) : '\n' ∉ escape c := by
  rcases escape_cases c with ⟨hc, -, hne⟩ | ⟨mark, hc, hmark⟩ | hc <;> rw [hc]
  · simpa using hne.symm
  · simpa using (ne_of_mem_shortEscapes _ hmark).2.symm
  · have hdigits := not_mem_hexDigits (c := '\n') (by decide) c
    simpa using hdigits

theorem escape_ne_nil (c : Char) : escape c ≠ [] := by
  rcases escape_cases c with ⟨hc, -, -⟩ | ⟨mark, hc, -⟩ | hc <;> simp [hc]

theorem flatMap_escape_inj {a b : List Char} (h : a.flatMap escape = b.flatMap escape) :
    a = b := by
  induction a generalizing b with
  | nil =>
      cases b with
      | nil => rfl
      | cons d b => simp [escape_ne_nil] at h
  | cons c a ih =>
      cases b with
      | nil => simp [escape_ne_nil] at h
      | cons d b =>
          obtain ⟨hfirst, hrest⟩ := escape_append_inj (by simpa using h)
          rw [hfirst, ih hrest]

theorem toList_quote (text : String) :
    (quote text).toList = '"' :: (text.toList.flatMap escape ++ ['"']) := by
  simp [quote]

/-- A text in quotes determines the text. -/
theorem quote_inj {a b : String} (h : quote a = quote b) : a = b := by
  have hchars := congrArg String.toList h
  rw [toList_quote, toList_quote] at hchars
  obtain ⟨hescaped, -⟩ := List.append_singleton_inj.1 (List.tail_eq_of_cons_eq hchars)
  exact String.toList_inj.1 (flatMap_escape_inj hescaped)

/-- A text in quotes stands on one line. -/
theorem newline_not_mem_quote (text : String) : '\n' ∉ (quote text).toList := by
  rw [toList_quote]
  simp [newline_not_mem_escape]

end QuotedText

namespace Token

/-- The name of a tag; a text has none. -/
def tagName : Token → String
  | text _ => ""
  | opening name => name
  | closing name => name

/-- What stands behind each line feed of a name. -/
def behindBreaks : List Char → List (List Char)
  | [] => []
  | c :: rest => if c = '\n' then rest :: behindBreaks rest else behindBreaks rest

theorem mem_behindBreaks (front back : List Char) :
    back ∈ behindBreaks (front ++ '\n' :: back) := by
  induction front with
  | nil => simp [behindBreaks]
  | cons c front ih =>
      rw [List.cons_append, behindBreaks]
      split
      · exact List.mem_cons_of_mem _ ih
      · exact ih

/-- The three ways in which the line of a token begins. -/
def lineHeads : List String := ["TEXT \"", "OPEN ", "CLOSE "]

/-- No line of the token's name behind the first begins as the line of a token does. -/
def IsUnmistakable (token : Token) : Prop :=
  ∀ back ∈ behindBreaks token.tagName.toList, ∀ head ∈ lineHeads, ¬ head.toList <+: back

instance (token : Token) : Decidable token.IsUnmistakable :=
  inferInstanceAs (Decidable (∀ back ∈ behindBreaks token.tagName.toList,
    ∀ head ∈ lineHeads, ¬ head.toList <+: back))

theorem listing_cons (token : Token) (tokens : List Token) :
    (listing (token :: tokens)).toList =
      token.line.toList ++ '\n' :: (listing tokens).toList := by
  simp [listing, String.join_cons]

theorem listing_cons_ne_nil (token : Token) (tokens : List Token) :
    listing (token :: tokens) ≠ listing [] := by
  intro h
  have hchars := congrArg String.toList h
  rw [listing_cons] at hchars
  simp [listing] at hchars

theorem exists_head_prefix_line (token : Token) :
    ∃ head ∈ lineHeads, head.toList <+: token.line.toList := by
  cases token with
  | text written =>
      refine ⟨"TEXT \"", by decide, written.toList.flatMap QuotedText.escape ++ ['"'], ?_⟩
      simp [line, QuotedText.toList_quote]
  | opening name => exact ⟨"OPEN ", by decide, name.toList, by simp [line]⟩
  | closing name => exact ⟨"CLOSE ", by decide, name.toList, by simp [line]⟩

theorem count_newline_line (token : Token) :
    token.line.toList.count '\n' = token.tagName.toList.count '\n' := by
  cases token with
  | text written =>
      have hquoted := List.count_eq_zero.2 (QuotedText.newline_not_mem_quote written)
      simp [line, tagName, hquoted]
  | opening name => simp [line, tagName]
  | closing name => simp [line, tagName]

theorem count_newline_listing (tokens : List Token) :
    (listing tokens).toList.count '\n' =
      tokens.length + (tokens.flatMap fun token => token.tagName.toList).count '\n' := by
  induction tokens with
  | nil => simp [listing]
  | cons token tokens ih =>
      rw [listing_cons, List.count_append, List.count_cons_self, ih, count_newline_line,
        List.flatMap_cons, List.count_append, List.length_cons]
      omega

theorem count_newline_listing_eq_length_iff (tokens : List Token) :
    (listing tokens).toList.count '\n' = tokens.length ↔
      ∀ token ∈ tokens, '\n' ∉ token.tagName.toList := by
  rw [count_newline_listing, Nat.add_eq_left, List.count_eq_zero, List.mem_flatMap]
  simp only [not_exists, not_and]

/-- What has no mark in it and stands at the beginning stands before the first mark. -/
theorem prefix_of_prefix_append_cons {mark : Char} {head front rest : List Char}
    (hmark : mark ∉ head) (h : head <+: front ++ mark :: rest) : head <+: front := by
  induction head generalizing front with
  | nil => exact List.nil_prefix
  | cons c head ih =>
      rw [List.mem_cons, not_or] at hmark
      cases front with
      | nil => exact absurd (List.cons_prefix_cons.1 h).1.symm hmark.1
      | cons d front =>
          obtain ⟨hhead, htail⟩ := List.cons_prefix_cons.1 h
          exact List.cons_prefix_cons.2 ⟨hhead, ih hmark.2 htail⟩

theorem line_inj {x y : Token} (h : x.line = y.line) : x = y := by
  have hchars := congrArg String.toList h
  cases x with
  | text written =>
      cases y with
      | text other =>
          have hquoted : (QuotedText.quote written).toList = (QuotedText.quote other).toList := by
            simpa [line] using hchars
          exact congrArg text (QuotedText.quote_inj (String.toList_inj.1 hquoted))
      | opening name => simp [line] at hchars
      | closing name => simp [line] at hchars
  | opening name =>
      cases y with
      | text written => simp [line] at hchars
      | opening other => exact congrArg opening (String.toList_inj.1 (by simpa [line] using hchars))
      | closing other => simp [line] at hchars
  | closing name =>
      cases y with
      | text written => simp [line] at hchars
      | opening other => simp [line] at hchars
      | closing other => exact congrArg closing (String.toList_inj.1 (by simpa [line] using hchars))

/-- Where the line of a token goes on behind that of another, both are tags of one kind. -/
theorem exists_tag_of_line {x y : Token} {back : List Char}
    (h : y.line.toList = x.line.toList ++ '\n' :: back) :
    ∃ tag : String → Token, (tag = opening ∨ tag = closing) ∧ ∃ front name,
      x = tag front ∧ y = tag name ∧ name.toList = front.toList ++ '\n' :: back := by
  cases y with
  | text written =>
      have hbreak : '\n' ∈ (line (.text written)).toList := by
        rw [h]
        simp
      simp [line, QuotedText.newline_not_mem_quote] at hbreak
  | opening name =>
      cases x with
      | text written => simp [line] at h
      | opening front => exact ⟨opening, .inl rfl, front, name, rfl, rfl, by simpa [line] using h⟩
      | closing front => simp [line] at h
  | closing name =>
      cases x with
      | text written => simp [line] at h
      | opening front => simp [line] at h
      | closing front => exact ⟨closing, .inr rfl, front, name, rfl, rfl, by simpa [line] using h⟩

/-- The name of a tag goes on through the lines that stand behind another token. -/
def RunsInto (x : Token) (behind : List Token) (y : Token) : Prop :=
  ∃ back rest, y.line.toList = x.line.toList ++ '\n' :: back ∧
    (listing behind).toList = back ++ '\n' :: rest

/-- The first token and what follows it are read off a listing, unless a name goes on. -/
theorem eq_of_line {x y : Token} {a b : List Token} (hy : ¬ RunsInto x a y)
    (hx : ¬ RunsInto y b x)
    (h : x.line.toList ++ '\n' :: (listing a).toList =
      y.line.toList ++ '\n' :: (listing b).toList) :
    x = y ∧ listing a = listing b := by
  rcases List.append_eq_append_iff.1 h with ⟨more, hmore, hrest⟩ | ⟨more, hmore, hrest⟩
  · cases more with
    | nil =>
        rw [List.append_nil] at hmore
        refine ⟨line_inj (String.toList_inj.1 hmore.symm), String.toList_inj.1 ?_⟩
        exact List.tail_eq_of_cons_eq hrest
    | cons c back =>
        obtain ⟨rfl, hback⟩ := List.cons.inj hrest
        exact absurd ⟨back, _, hmore, hback⟩ hy
  · cases more with
    | nil =>
        rw [List.append_nil] at hmore
        refine ⟨line_inj (String.toList_inj.1 hmore), String.toList_inj.1 ?_⟩
        exact (List.tail_eq_of_cons_eq hrest).symm
    | cons c back =>
        obtain ⟨rfl, hback⟩ := List.cons.inj hrest
        exact absurd ⟨back, _, hmore, hback⟩ hx

/-- Lists in which no name goes on through what stands behind another token are read off their
listings. -/
theorem eq_of_listing_eq {P : List Token → Prop} (htail : ∀ {x a}, P (x :: a) → P a)
    (hends : ∀ {x a y b}, P (x :: a) → P (y :: b) → ¬ RunsInto x a y) {a b : List Token}
    (ha : P a) (hb : P b) (h : listing a = listing b) : a = b := by
  induction a generalizing b with
  | nil =>
      cases b with
      | nil => rfl
      | cons y b => exact absurd h.symm (listing_cons_ne_nil y b)
  | cons x a ih =>
      cases b with
      | nil => exact absurd h (listing_cons_ne_nil x a)
      | cons y b =>
          have hchars := congrArg String.toList h
          rw [listing_cons, listing_cons] at hchars
          obtain ⟨hfirst, hrest⟩ := eq_of_line (hends ha hb) (hends hb ha) hchars
          rw [hfirst, ih (htail ha) (htail hb) hrest]

/-! ## Any tokens -/

theorem IsUnmistakable.not_runsInto {y : Token} (hy : y.IsUnmistakable) (x : Token)
    (behind : List Token) : ¬ RunsInto x behind y := by
  rintro ⟨back, rest, hline, hlisting⟩
  obtain ⟨tag, htag, front, name, -, rfl, hname⟩ := exists_tag_of_line hline
  cases behind with
  | nil => simp [listing] at hlisting
  | cons first tokens =>
      obtain ⟨head, hhead, hfirst⟩ := exists_head_prefix_line first
      have hbreak : ∀ head ∈ lineHeads, '\n' ∉ head.toList := by decide
      have hwhole : head.toList <+: back ++ '\n' :: rest := by
        rw [← hlisting, listing_cons]
        exact hfirst.trans (List.prefix_append _ _)
      have hback := prefix_of_prefix_append_cons (hbreak head hhead) hwhole
      have hbehind : back ∈ behindBreaks (tag name).tagName.toList := by
        rcases htag with rfl | rfl <;> simp [tagName, hname, mem_behindBreaks]
      exact hy back hbehind head hhead hback

theorem eq_of_listing_of_unmistakable {a b : List Token} (ha : ∀ token ∈ a, token.IsUnmistakable)
    (hb : ∀ token ∈ b, token.IsUnmistakable) (h : listing a = listing b) : a = b :=
  eq_of_listing_eq (P := fun tokens => ∀ token ∈ tokens, token.IsUnmistakable)
    (fun h => (List.forall_mem_cons.1 h).2)
    (fun _ hy => (List.forall_mem_cons.1 hy).1.not_runsInto _ _) ha hb h

/-! ## Tokens of markup -/

/-- Markup can hold the token. -/
def IsHeld (token : Token) : Prop := token.Legible ∧ token ≠ text ""

instance : ∀ token : Token, Decidable token.Legible
  | text written => decidable_of_iff (written.toList.all isText = true) List.all_eq_true
  | opening name =>
      decidable_of_iff (name ≠ "" ∧ name.toList.head? ≠ some '/' ∧ name.toList.all isBody = true)
        (by rw [Legible, List.all_eq_true])
  | closing name => decidable_of_iff (name.toList.all isBody = true) List.all_eq_true

instance (token : Token) : Decidable token.IsHeld :=
  inferInstanceAs (Decidable (token.Legible ∧ token ≠ text ""))

/-- The tag stands in a listing as two tokens do. As the second of them `OPEN ` will do, since
the name of a tag can begin with the line feed behind it. -/
def IsTwofold (token : Token) : Prop :=
  ∃ first second : Token, first.IsHeld ∧ (second.IsHeld ∨ second = opening "") ∧
    token.line = first.line ++ "\n" ++ second.line

theorem IsShaped.tail {token : Token} {tokens : List Token} (h : IsShaped (token :: tokens)) :
    IsShaped tokens where
  legible other hother := h.legible other (List.mem_cons_of_mem _ hother)
  filled hmem := h.filled (List.mem_cons_of_mem _ hmem)
  apart := h.apart.tail

theorem IsShaped.isHeld_head {token : Token} {tokens : List Token}
    (h : IsShaped (token :: tokens)) : token.IsHeld :=
  ⟨h.legible token List.mem_cons_self, fun heq => h.filled (heq ▸ List.mem_cons_self)⟩

theorem isShaped_tokenize (markup : String) : IsShaped (tokenize markup).tokens := by
  obtain ⟨hfilled, hapart⟩ := fuse_eq_self_iff.1 (fuse_scan 0 markup.toList)
  exact ⟨legible_tokenize markup, hfilled, hapart⟩

/-- A name that goes on through the line of a tag holds the line of a token. -/
theorem exists_second_of_tag {token : Token} (htoken : token.IsHeld)
    (htag : ∀ written, token ≠ text written) {back more rest : List Char}
    (hbody : ∀ c ∈ back, isBody c = true)
    (h : token.line.toList ++ '\n' :: more = back ++ '\n' :: rest) :
    ∃ second : Token, (second.IsHeld ∨ second = opening "") ∧ back = second.line.toList := by
  cases token with
  | text written => exact absurd rfl (htag written)
  | opening name =>
      have hhead : "OPEN ".toList <+: back ++ '\n' :: rest :=
        ⟨name.toList ++ '\n' :: more, by rw [← h]; simp [line]⟩
      obtain ⟨found, rfl⟩ := prefix_of_prefix_append_cons (by decide) hhead
      have hname : name.toList ++ '\n' :: more = found ++ '\n' :: rest := by
        simpa [line] using h
      cases found with
      | nil => exact ⟨opening "", .inr rfl, by simp [line]⟩
      | cons c found =>
          obtain ⟨⟨hne, hslash, -⟩, -⟩ := htoken
          obtain ⟨d, others, hd⟩ := List.exists_cons_of_ne_nil (String.toList_eq_nil_iff.not.2 hne)
          rw [hd, List.cons_append, List.cons_append] at hname
          have hfirst : d = c := List.head_eq_of_cons_eq hname
          rw [hd, hfirst] at hslash
          refine ⟨opening (String.ofList (c :: found)), .inl ⟨⟨?_, ?_, ?_⟩, by simp⟩, ?_⟩
          · simp
          · simpa using hslash
          · exact fun e he => hbody e (List.mem_append_right _ (by simpa using he))
          · simp [line]
  | closing name =>
      have hhead : "CLOSE ".toList <+: back ++ '\n' :: rest :=
        ⟨name.toList ++ '\n' :: more, by rw [← h]; simp [line]⟩
      obtain ⟨found, rfl⟩ := prefix_of_prefix_append_cons (by decide) hhead
      refine ⟨closing (String.ofList found), .inl ⟨fun e he => ?_, by simp⟩, by simp [line]⟩
      exact hbody e (List.mem_append_right _ (by simpa using he))

/-- A name that goes on through the lines of a listing ends with the line of a token: of the
first in the listing, or of the second if the first is a text. -/
theorem exists_second {tokens : List Token} (h : IsShaped tokens) {back rest : List Char}
    (hbody : ∀ c ∈ back, isBody c = true)
    (hlisting : (listing tokens).toList = back ++ '\n' :: rest) :
    ∃ second : Token, (second.IsHeld ∨ second = opening "") ∧
      (back = second.line.toList ∨ ∃ front, back = front ++ '\n' :: second.line.toList) := by
  cases tokens with
  | nil => simp [listing] at hlisting
  | cons token tokens =>
      rw [listing_cons] at hlisting
      by_cases htag : ∀ written, token ≠ text written
      · obtain ⟨second, hsecond, hback⟩ := exists_second_of_tag h.isHeld_head htag hbody hlisting
        exact ⟨second, hsecond, .inl hback⟩
      obtain ⟨written, rfl⟩ := not_forall_not.1 htag
      rcases List.append_eq_append_iff.1 hlisting with ⟨more, hmore, hrest⟩ | ⟨more, hmore, hrest⟩
      · cases more with
        | nil => exact ⟨text written, .inl h.isHeld_head, .inl (by simpa using hmore)⟩
        | cons c more =>
            obtain ⟨rfl, hbehind⟩ := List.cons.inj hrest
            cases tokens with
            | nil => simp [listing] at hbehind
            | cons next tokens =>
                rw [listing_cons] at hbehind
                have hnext (other : String) : next ≠ text other := by
                  rintro rfl
                  exact (List.isChain_cons_cons.1 h.apart).1
                have hmoreBody : ∀ c ∈ more, isBody c = true := fun c hc =>
                  hbody c (by rw [hmore]; simp [hc])
                obtain ⟨second, hsecond, rfl⟩ :=
                  exists_second_of_tag h.tail.isHeld_head hnext hmoreBody hbehind
                exact ⟨second, hsecond, .inr ⟨_, hmore⟩⟩
      · cases more with
        | nil => exact ⟨text written, .inl h.isHeld_head, .inl (by simpa using hmore.symm)⟩
        | cons c more =>
            obtain ⟨rfl, -⟩ := List.cons.inj hrest
            have hbreak : '\n' ∈ (line (.text written)).toList := by
              rw [hmore]
              simp
            simp [line, QuotedText.newline_not_mem_quote] at hbreak

section Tags

variable {tag : String → Token} (htag : tag = opening ∨ tag = closing) {name : String}
  (h : (tag name).IsHeld)

include htag h

theorem IsHeld.isBody : ∀ c ∈ name.toList, isBody c = true := by
  rcases htag with rfl | rfl
  · exact h.1.2.2
  · exact h.1

theorem IsHeld.append (more : List Char) (hmore : ∀ c ∈ more, Token.isBody c = true) :
    (tag (name ++ String.ofList more)).IsHeld := by
  have hbody : ∀ c ∈ (name ++ String.ofList more).toList, Token.isBody c = true := by
    intro c hc
    rw [String.toList_append, String.toList_ofList, List.mem_append] at hc
    exact hc.elim (h.isBody htag c) (hmore c)
  rcases htag with rfl | rfl
  · obtain ⟨⟨hne, hslash, -⟩, -⟩ := h
    refine ⟨⟨?_, ?_, hbody⟩, by simp⟩
    · simp [hne]
    · rw [String.toList_append, List.head?_append_of_ne_nil _ (by simpa using hne)]
      exact hslash
  · exact ⟨hbody, by simp⟩

end Tags

/-- Of a tag that is not listed as two tokens, the name does not go on through other lines. -/
theorem not_runsInto_of_shaped {x y : Token} {a b : List Token} (ha : IsShaped (x :: a))
    (hb : IsShaped (y :: b)) (hy : ¬ y.IsTwofold) : ¬ RunsInto x a y := by
  rintro ⟨back, rest, hline, hlisting⟩
  obtain ⟨tag, htag, front, name, rfl, rfl, hname⟩ := exists_tag_of_line hline
  have hbody := hb.isHeld_head.isBody htag
  have hback : ∀ c ∈ back, isBody c = true := fun c hc => hbody c (by rw [hname]; simp [hc])
  obtain ⟨second, hsecond, rfl | ⟨between, rfl⟩⟩ := exists_second ha.tail hback hlisting
  · refine hy ⟨tag front, second, ha.isHeld_head, hsecond, ?_⟩
    rw [← String.toList_inj, hline]
    simp
  · have hfront := ha.isHeld_head.append htag ('\n' :: between) fun c hc =>
      hbody c (by rw [hname]; simp at hc ⊢; tauto)
    refine hy ⟨_, second, hfront, hsecond, ?_⟩
    rw [← String.toList_inj, hline]
    rcases htag with rfl | rfl <;> simp [line]

/-- Lists of tokens that were read are read off their listings if none of their tags is listed
as two tokens. -/
theorem eq_of_listing_of_shaped {a b : List Token} (ha : IsShaped a) (hb : IsShaped b)
    (honeA : ∀ token ∈ a, ¬ token.IsTwofold) (honeB : ∀ token ∈ b, ¬ token.IsTwofold)
    (h : listing a = listing b) : a = b :=
  eq_of_listing_eq (P := fun tokens => IsShaped tokens ∧ ∀ token ∈ tokens, ¬ token.IsTwofold)
    (fun h => ⟨h.1.tail, (List.forall_mem_cons.1 h.2).2⟩)
    (fun hx hy => not_runsInto_of_shaped hx.1 hy.1 (List.forall_mem_cons.1 hy.2).1)
    ⟨ha, honeA⟩ ⟨hb, honeB⟩ h

theorem tokens_tokenize_renderAll {tokens : List Token} (h : IsShaped tokens) :
    (tokenize (renderAll tokens)).tokens = tokens := by
  rw [tokenize_renderAll h.legible, fuse_eq_self_iff.2 ⟨h.filled, h.apart⟩]

theorem isShaped_singleton {token : Token} (h : token.IsHeld) : IsShaped [token] where
  legible := by simpa using h.1
  filled := by simpa using h.2.symm
  apart := List.isChain_singleton token

theorem isShaped_pair {x y : Token} (hx : x.IsHeld) (hy : y.IsHeld) (h : Apart x y) :
    IsShaped [x, y] where
  legible := by simpa using ⟨hx.1, hy.1⟩
  filled := by simpa using ⟨hx.2.symm, hy.2.symm⟩
  apart := List.isChain_pair.2 h

theorem toList_eq_of_twofold {token first second : Token}
    (h : token.line = first.line ++ "\n" ++ second.line) :
    token.line.toList = first.line.toList ++ '\n' :: second.line.toList := by
  rw [h]
  simp

theorem exists_behind_of_opening {name : String} {first second : Token}
    (h : (opening name).line = first.line ++ "\n" ++ second.line) :
    ∃ front, first = opening front ∧ name.toList = front.toList ++ '\n' :: second.line.toList := by
  obtain ⟨tag, htag, front, other, hfirst, hname, hbehind⟩ :=
    exists_tag_of_line (toList_eq_of_twofold h)
  rcases htag with rfl | rfl
  · obtain rfl := opening.inj hname
    exact ⟨front, hfirst, hbehind⟩
  · cases hname

/-- Every tag that is listed as two tokens stands in some markup that has the listing of another
one. -/
theorem IsTwofold.exists_markup {token : Token} (h : token.IsTwofold) (htoken : token.IsHeld) :
    ∃ markup other : String, token ∈ (tokenize markup).tokens ∧
      listing (tokenize markup).tokens = listing (tokenize other).tokens ∧
      (tokenize markup).tokens ≠ (tokenize other).tokens := by
  obtain ⟨first, second, hfirst, hsecond, hline⟩ := h
  obtain ⟨tag, htag, front, name, rfl, rfl, -⟩ := exists_tag_of_line (toList_eq_of_twofold hline)
  have happart (next : Token) (text : String) : Apart (tag text) next := by
    rcases htag with rfl | rfl <;> trivial
  rcases hsecond with hsecond | rfl
  · refine ⟨renderAll [tag name], renderAll [tag front, second], ?_⟩
    rw [tokens_tokenize_renderAll (isShaped_singleton htoken),
      tokens_tokenize_renderAll (isShaped_pair hfirst hsecond (happart _ _))]
    refine ⟨List.mem_singleton_self _, ?_, by simp⟩
    rw [listing, listing]
    simp [hline, String.append_assoc]
  · -- The line feed behind `OPEN ` begins a name.
    have hplain : (opening "b").IsHeld := by decide +kernel
    have hbroken : (opening "\nOPEN b").IsHeld := by decide +kernel
    refine ⟨renderAll [tag name, opening "b"], renderAll [tag front, opening "\nOPEN b"], ?_⟩
    rw [tokens_tokenize_renderAll (isShaped_pair htoken hplain (happart _ _)),
      tokens_tokenize_renderAll (isShaped_pair hfirst hbroken (happart _ _))]
    refine ⟨List.mem_cons_self, ?_, by simp⟩
    simp only [listing, List.map_cons, List.map_nil, hline]
    simp [line, String.append_assoc]

/-- A listing of tokens has a line for each token and one more for every line feed in the
name of a tag, so there are no more lines than tokens only if no name has one. A listing
determines the tokens as long as no further line of a name begins as the line of a token
does. For the tokens of markup it is enough that no tag is listed as two tokens. -/
theorem listing_faithful (a b : List Token) :
    (OutputFormat.simple.renderTokens a).toList.count '\n' =
        a.length + (a.flatMap fun token => token.tagName.toList).count '\n' ∧
      ((OutputFormat.simple.renderTokens a).toList.count '\n' = a.length ↔
        ∀ token ∈ a, '\n' ∉ token.tagName.toList) ∧
      ((∀ token ∈ a, token.IsUnmistakable) → (∀ token ∈ b, token.IsUnmistakable) →
        OutputFormat.simple.renderTokens a = OutputFormat.simple.renderTokens b → a = b) ∧
      ∀ markup other : String, (tokenize markup).tokens = a → (tokenize other).tokens = b →
        (∀ token ∈ a, ¬ token.IsTwofold) → (∀ token ∈ b, ¬ token.IsTwofold) →
        OutputFormat.simple.renderTokens a = OutputFormat.simple.renderTokens b → a = b := by
  refine ⟨count_newline_listing a, count_newline_listing_eq_length_iff a,
    fun ha hb h => eq_of_listing_of_unmistakable ha hb h, ?_⟩
  rintro markup other rfl rfl ha hb h
  exact eq_of_listing_of_shaped (isShaped_tokenize markup) (isShaped_tokenize other) ha hb h

/-- Two tags whose names have line feeds in them, with a text between that has one, too. -/
def brokenNames : String := "<B\nOPENED\nTEXT c>d\n\"\u00e9\u200b\\</\n CLOSE >"

/-- Two tags with lines in their names that begin as those of tokens do, and are none. -/
def twistedNames : String := "<B\nOPEN /c\nTEXT \"d><\nOPEN e>"

theorem not_isTwofold_twistedNames :
    ∀ token ∈ (tokenize twistedNames).tokens, ¬ token.IsTwofold := by
  have htokens : (tokenize twistedNames).tokens =
      [opening "B\nOPEN /c\nTEXT \"d", opening "\nOPEN e"] := by
    decide +kernel
  rw [htokens, List.forall_mem_cons, List.forall_mem_singleton]
  constructor
  · rintro ⟨first, second, -, hsecond, hline⟩
    obtain ⟨front, -, hfront⟩ := exists_behind_of_opening hline
    have hbehind : second.line.toList ∈ behindBreaks "B\nOPEN /c\nTEXT \"d".toList :=
      hfront ▸ mem_behindBreaks front.toList second.line.toList
    have hlines : behindBreaks "B\nOPEN /c\nTEXT \"d".toList =
        ["OPEN /c\nTEXT \"d".toList, "TEXT \"d".toList] := by
      decide +kernel
    rw [hlines, List.mem_pair, String.toList_inj, String.toList_inj] at hbehind
    rcases hbehind with hopen | htext
    · have hslash : second = opening "/c\nTEXT \"d" := line_inj hopen
      rw [hslash] at hsecond
      revert hsecond
      decide +kernel
    · -- A text ends in a quote.
      have hchars := congrArg String.toList htext
      cases second with
      | text written =>
          have hquoted : written.toList.flatMap QuotedText.escape ++ ['"'] = [] ++ ['d'] := by
            simpa [line, QuotedText.toList_quote] using hchars
          exact absurd (List.append_singleton_inj.1 hquoted).2 (by decide)
      | opening other => simp [line] at hchars
      | closing other => simp [line] at hchars
  · rintro ⟨first, second, hfirst, -, hline⟩
    obtain ⟨front, rfl, hfront⟩ := exists_behind_of_opening hline
    have hbehind : second.line.toList ∈ behindBreaks "\nOPEN e".toList :=
      hfront ▸ mem_behindBreaks front.toList second.line.toList
    have hlines : behindBreaks "\nOPEN e".toList = ["OPEN e".toList] := by decide +kernel
    rw [hlines, List.mem_singleton] at hbehind
    have hname : "\nOPEN e".toList = '\n' :: "OPEN e".toList := by decide +kernel
    rw [hname, hbehind, List.self_eq_append_left, String.toList_eq_nil_iff] at hfront
    exact hfirst.1.1 hfront

theorem listing_faithful_brokenNames :
    let a := (tokenize brokenNames).tokens
    let b := (tokenize (brokenNames ++ "<>")).tokens
    let c := (tokenize twistedNames).tokens
    let d := (tokenize (twistedNames ++ "<>")).tokens
    (∀ token ∈ a, token.IsUnmistakable) ∧ (∀ token ∈ b, token.IsUnmistakable) ∧
      (OutputFormat.simple.renderTokens a).toList.count '\n' = 6 ∧
      OutputFormat.simple.renderTokens a =
        "OPEN B\nOPENED\nTEXT c\n" ++
          "TEXT \"d\\n\\\"\u00e9\\u\x7b200b\x7d\\\\\"\n" ++
          "CLOSE \n CLOSE \n" ∧
      a = b ∧
      (∀ token ∈ c, ¬ token.IsUnmistakable) ∧ (∀ token ∈ c, ¬ token.IsTwofold) ∧
      (∀ token ∈ d, ¬ token.IsTwofold) ∧ c = d := by
  have ha : ∀ token ∈ (tokenize brokenNames).tokens, token.IsUnmistakable := by
    decide +kernel
  have hb : ∀ token ∈ (tokenize (brokenNames ++ "<>")).tokens, token.IsUnmistakable := by
    decide +kernel
  have hsame : OutputFormat.simple.renderTokens (tokenize brokenNames).tokens =
      OutputFormat.simple.renderTokens (tokenize (brokenNames ++ "<>")).tokens := by
    decide +kernel
  have hcut : (tokenize (twistedNames ++ "<>")).tokens = (tokenize twistedNames).tokens := by
    decide +kernel
  have hc := not_isTwofold_twistedNames
  have hd : ∀ token ∈ (tokenize (twistedNames ++ "<>")).tokens, ¬ token.IsTwofold := by
    rw [hcut]
    exact hc
  obtain ⟨hcount, -, hidentifies, -⟩ := listing_faithful (tokenize brokenNames).tokens
    (tokenize (brokenNames ++ "<>")).tokens
  obtain ⟨-, -, -, hmarkup⟩ := listing_faithful (tokenize twistedNames).tokens
    (tokenize (twistedNames ++ "<>")).tokens
  refine ⟨ha, hb, ?_, by decide +kernel, hidentifies ha hb hsame, by decide +kernel, hc, hd,
    hmarkup _ _ rfl rfl hc hd (by decide +kernel)⟩
  rw [hcount]
  decide +kernel

/-- A tag may look like two, and has two lines. -/
theorem listing_not_faithful :
    let a := (tokenize "<a\nOPEN b>").tokens
    let b := (tokenize "<a><b>").tokens
    (OutputFormat.simple.renderTokens a).toList.count '\n' ≠ a.length ∧
      OutputFormat.simple.renderTokens a = OutputFormat.simple.renderTokens b ∧ a ≠ b := by
  decide +kernel

end Token

end StyledMarkup
