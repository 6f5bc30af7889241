import StyledMarkup.Document

/-!
# Texts made of words

A list of words is written as one text with a space between neighbours. From
proper words, which are not empty and have no white space in them, the text gives
the list back, and from no others. Where two such texts meet, the last word of the
one and the first word of the other become one word, and all other words stay.
-/
namespace StyledMarkup

namespace Words

/-- What stands in a text stands in one of its words or in what divides them. -/
theorem mem_of_mem_intercalate {divider : String} {words : List String} {c : Char}
    (h : c ∈ (divider.intercalate words).toList) :
    c ∈ divider.toList ∨ ∃ word ∈ words, c ∈ word.toList := by
  induction words with
  | nil => simp at h
  | cons word rest ih =>
      by_cases hrest : rest = []
      · subst hrest
        exact .inr ⟨word, List.mem_cons_self, by simpa using h⟩
      · rw [String.intercalate_cons_of_ne_nil hrest, String.toList_append, String.toList_append,
          List.mem_append, List.mem_append] at h
        rcases h with (h | h) | h
        · exact .inr ⟨word, List.mem_cons_self, h⟩
        · exact .inl h
        · rcases ih h with h | ⟨other, hother, h⟩
          · exact .inl h
          · exact .inr ⟨other, List.mem_cons_of_mem _ hother, h⟩

theorem mem_intercalate {words : List String} {c : Char}
    (h : c ∈ (" ".intercalate words).toList) : c = ' ' ∨ ∃ word ∈ words, c ∈ word.toList := by
  rcases mem_of_mem_intercalate h with hspace | hword
  · exact .inl (by simpa using hspace)
  · exact .inr hword

/-- The words of two texts that meet. -/
def weld : List String → List String → List String
  | [], others => others
  | [word], [] => [word]
  | [word], other :: others => (word ++ other) :: others
  | word :: next :: rest, others => word :: weld (next :: rest) others

theorem weld_ne_nil {a : List String} (ha : a ≠ []) (b : List String) : weld a b ≠ [] := by
  fun_cases weld a b <;> simp_all

theorem weld_assoc (a : List String) {b : List String} (hb : b ≠ []) (c : List String) :
    weld a (weld b c) = weld (weld a b) c := by
  induction a with
  | nil => rfl
  | cons word rest ih =>
      cases rest with
      | nil =>
          cases b with
          | nil => exact absurd rfl hb
          | cons other others =>
              cases others with
              | nil => cases c <;> simp [weld, String.append_assoc]
              | cons next others => simp [weld]
      | cons next rest =>
          obtain ⟨first, others, hweld⟩ := List.exists_cons_of_ne_nil
            (weld_ne_nil (List.cons_ne_nil next rest) b)
          rw [weld, ih, weld, hweld, weld]

theorem length_weld {a b : List String} (ha : a ≠ []) (hb : b ≠ []) :
    (weld a b).length + 1 = a.length + b.length := by
  induction a with
  | nil => exact absurd rfl ha
  | cons word rest ih =>
      cases rest with
      | nil =>
          cases b with
          | nil => exact absurd rfl hb
          | cons other others => simp [weld]; omega
      | cons next rest =>
          have hrest := ih (List.cons_ne_nil _ _)
          simp only [weld, List.length_cons] at hrest ⊢
          omega

theorem intercalate_weld {a b : List String} (ha : a ≠ []) (hb : b ≠ []) :
    " ".intercalate a ++ " ".intercalate b = " ".intercalate (weld a b) := by
  induction a with
  | nil => exact absurd rfl ha
  | cons word rest ih =>
      cases rest with
      | nil =>
          cases b with
          | nil => exact absurd rfl hb
          | cons other others => simp [weld]
      | cons next rest =>
          have hrest := ih (List.cons_ne_nil _ _)
          rw [weld, String.intercalate_cons_of_ne_nil (List.cons_ne_nil _ _),
            String.intercalate_cons_of_ne_nil (weld_ne_nil (List.cons_ne_nil _ _) b), ← hrest]
          simp only [String.append_assoc]

end Words

/-- A word as it is found in running text. -/
structure IsWord (word : String) : Prop where
  ne_empty : word ≠ ""
  no_separator : ∀ c ∈ word.toList, Run.isSeparator c = false

theorem isWord_iff {word : String} :
    word ≠ "" ∧ (word.toList.any Run.isSeparator) = false ↔ IsWord word := by
  rw [List.any_eq_false]
  constructor
  · rintro ⟨hne, hseparator⟩
    exact ⟨hne, fun c hc => by simpa using hseparator c hc⟩
  · rintro ⟨hne, hseparator⟩
    exact ⟨hne, fun c hc => by simp [hseparator c hc]⟩

instance (word : String) : Decidable (IsWord word) := decidable_of_decidable_of_iff isWord_iff

namespace Words

theorem isWord_append {a b : String} (ha : IsWord a) (hb : IsWord b) : IsWord (a ++ b) where
  ne_empty := by simp [ha.ne_empty]
  no_separator := by
    intro c hc
    rw [String.toList_append, List.mem_append] at hc
    rcases hc with hc | hc
    · exact ha.no_separator c hc
    · exact hb.no_separator c hc

theorem isWord_weld {a b : List String} (ha : ∀ word ∈ a, IsWord word)
    (hb : ∀ word ∈ b, IsWord word) : ∀ word ∈ weld a b, IsWord word := by
  induction a with
  | nil => exact hb
  | cons first rest ih =>
      have hfirst := ha first List.mem_cons_self
      have hrest : ∀ word ∈ rest, IsWord word := fun word hword =>
        ha word (List.mem_cons_of_mem _ hword)
      cases rest with
      | nil =>
          cases b with
          | nil => exact ha
          | cons other others =>
              intro word hword
              rcases List.mem_cons.1 hword with rfl | hword
              · exact isWord_append hfirst (hb other List.mem_cons_self)
              · exact hb word (List.mem_cons_of_mem _ hword)
      | cons next rest =>
          intro word hword
          rcases List.mem_cons.1 hword with rfl | hword
          · exact hfirst
          · exact ih hrest word hword

theorem intercalate_ne_empty {words : List String} (hne : words ≠ [])
    (h : ∀ word ∈ words, IsWord word) : " ".intercalate words ≠ "" := by
  cases words with
  | nil => exact absurd rfl hne
  | cons word rest =>
      have hword := (h word List.mem_cons_self).ne_empty
      cases rest with
      | nil => simpa using hword
      | cons next rest => simp [hword]

/-- Words that are not empty and hold no separator come back from the text that they make. -/
theorem split_intercalate_of {separator : Char → Bool} (hspace : separator ' ' = true)
    {words : List String}
    (h : ∀ word ∈ words, word ≠ "" ∧ ∀ c ∈ word.toList, separator c = false) :
    split separator (" ".intercalate words) = words := by
  induction words with
  | nil => simp
  | cons word rest ih =>
      obtain ⟨hword, hrest⟩ := List.forall_mem_cons.1 h
      have hsplit := split_eq_singleton hword.1 hword.2
      by_cases hnil : rest = []
      · rw [hnil, String.intercalate_singleton, hsplit]
      · have hcut := split_append_separator separator word (" ".intercalate rest) hspace
        rw [String.intercalate_cons_of_ne_nil hnil]
        calc split separator (word ++ " " ++ " ".intercalate rest)
            = split separator word ++ split separator (" ".intercalate rest) := hcut
          _ = word :: rest := by
              rw [hsplit, ih hrest]
              rfl

/-- Proper words come back from the text that they make. -/
theorem split_intercalate {words : List String} (h : ∀ word ∈ words, IsWord word) :
    split Run.isSeparator (" ".intercalate words) = words :=
  split_intercalate_of (by decide) fun word hword =>
    ⟨(h word hword).ne_empty, (h word hword).no_separator⟩

/-- A stretch between separators holds characters of the text and none of the separators. -/
theorem mem_splitOnP {separator : Char → Bool} {text piece : List Char}
    (h : piece ∈ text.splitOnP separator) : ∀ c ∈ piece, separator c = false ∧ c ∈ text := by
  induction text generalizing piece with
  | nil =>
      intro c hc
      simp_all
  | cons first rest ih =>
      have hrest : ∀ piece ∈ rest.splitOnP separator, ∀ c ∈ piece,
          separator c = false ∧ c ∈ first :: rest := fun piece hpiece c hc =>
        ⟨(ih hpiece c hc).1, List.mem_cons_of_mem _ (ih hpiece c hc).2⟩
      rw [List.splitOnP_cons_eq_if_modifyHead] at h
      split at h
      · rcases List.mem_cons.1 h with rfl | h
        · simp
        · exact hrest piece h
      · rename_i hfirst
        obtain ⟨head, tail, hsplit⟩ := List.exists_cons_of_ne_nil
          (List.splitOnP_ne_nil separator rest)
        rw [hsplit] at h hrest
        rcases List.mem_cons.1 h with rfl | h
        · intro c hc
          rcases List.mem_cons.1 hc with rfl | hc
          · exact ⟨by simpa using hfirst, List.mem_cons_self⟩
          · exact hrest head List.mem_cons_self c hc
        · exact hrest piece (List.mem_cons_of_mem _ h)

/-- What is found in running text are proper words, made of its characters. -/
theorem isWord_of_mem_split {text word : String} (h : word ∈ split Run.isSeparator text) :
    IsWord word ∧ ∀ c ∈ word.toList, c ∈ text.toList := by
  obtain ⟨piece, hpiece, rfl⟩ := List.mem_map.1 h
  obtain ⟨hmem, hne⟩ := List.mem_filter.1 hpiece
  have hchars := mem_splitOnP hmem
  refine ⟨⟨?_, ?_⟩, ?_⟩
  · simpa using hne
  · intro c hc
    exact (hchars c (by simpa using hc)).1
  · intro c hc
    exact (hchars c (by simpa using hc)).2

end Words

namespace Run

theorem text_of_running {style : Style} (h : style.literal = false) (words : List String) :
    text ⟨style, words⟩ = " ".intercalate words := by
  simp [text, h]

theorem ofText_intercalate {style : Style} (h : style.literal = false) {words : List String}
    (hwords : ∀ word ∈ words, IsWord word) :
    ofText style (" ".intercalate words) = ⟨style, words⟩ := by
  simp [ofText, h, Words.split_intercalate hwords]

theorem isWord_of_mem_ofText {style : Style} (h : style.literal = false) {written word : String}
    (hword : word ∈ (ofText style written).words) : IsWord word := by
  have hsplit : word ∈ Words.split isSeparator written := by simpa [ofText, h] using hword
  exact (Words.isWord_of_mem_split hsplit).1

theorem isSeparator_iff {c : Char} :
    isSeparator c = true ↔ c ∈ [' ', '\t', '\n', '\r', '\x0c'] := by
  simp [isSeparator, or_assoc]

theorem isWord_iff_separators {word : String} :
    IsWord word ↔ word ≠ "" ∧ ∀ c ∈ [' ', '\t', '\n', '\r', '\x0c'], c ∉ word.toList := by
  constructor
  · rintro ⟨hne, hplain⟩
    refine ⟨hne, fun c hc hmem => ?_⟩
    have hseparator := isSeparator_iff.2 hc
    rw [hplain c hmem] at hseparator
    cases hseparator
  · rintro ⟨hne, habsent⟩
    refine ⟨hne, fun c hmem => ?_⟩
    rw [Bool.eq_false_iff, Ne, isSeparator_iff]
    exact fun hc => habsent c hc hmem

/-- A run that was read from text, literal or not, is read again from its own text. A list of
running words comes back from its text if and only if every word has something in it and none
of the five separators; any other character may stand in it. -/
theorem ofText_inverts_text (style : Style) :
    (∀ written, ofText style (ofText style written).text = ofText style written) ∧
      (style.literal = false → ∀ words : List String,
        (ofText style (Run.mk style words).text).words = words ↔
          ∀ word ∈ words,
            word ≠ "" ∧ ∀ c ∈ [' ', '\t', '\n', '\r', '\x0c'], c ∉ word.toList) := by
  constructor
  · intro written
    cases hliteral : style.literal with
    | true => simp [ofText, text, hliteral]
    | false =>
        have hwords : ∀ word ∈ (ofText style written).words, IsWord word :=
          fun word hword => isWord_of_mem_ofText hliteral hword
        calc ofText style (ofText style written).text
            = ofText style (" ".intercalate (ofText style written).words) :=
              congrArg (ofText style) (text_of_running hliteral _)
          _ = ofText style written := ofText_intercalate hliteral hwords
  · intro hliteral words
    rw [text_of_running hliteral]
    simp only [← isWord_iff_separators]
    constructor
    · intro hback word hword
      rw [← hback] at hword
      exact isWord_of_mem_ofText hliteral hword
    · intro hwords
      rw [ofText_intercalate hliteral hwords]

/-- White space of other kinds belongs to a word; an empty word, a tab at an end and a space
inside are each enough for words not to come back. -/
theorem ofText_inverts_text_unevenWords :
    (ofText {} (text ⟨{}, ["a\u00a0b", "\u2003", "c,\x0b"]⟩)).words =
        ["a\u00a0b", "\u2003", "c,\x0b"] ∧
      ∀ words ∈ [["a", "", "b"], ["a", "b\t"], ["a b"]],
        (ofText {} (text ⟨{}, words⟩)).words ≠ words := by
  have hback := (ofText_inverts_text {}).2 rfl
  refine ⟨(hback _).2 (by simp), fun words hwords heq => ?_⟩
  have hproper := (hback words).1 heq
  simp only [List.mem_cons, List.not_mem_nil, or_false] at hwords
  rcases hwords with rfl | rfl | rfl
  · exact (hproper "" (by simp)).1 rfl
  · exact (hproper "b\t" (by simp)).2 '\t' (by simp) (by simp)
  · exact (hproper "a b" (by simp)).2 ' ' (by simp) (by simp)

end Run

end StyledMarkup
