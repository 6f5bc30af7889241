import StyledMarkup.Proofs.Alternation

/-!
# Repeated conversion

The markup that comes out of a conversion is converted again, and so on. All of
these conversions succeed if the first does. They need not come to rest: emphasis
inside bold makes markup of which every second conversion undoes the one before.
But nothing worse happens. The first conversion may still hold literal text and the
second styles that are not kept; from the fourth on the markup alternates between
two forms.
-/
namespace StyledMarkup

/-- The markup after so many conversions. -/
def rewrites (markup : String) : Nat → Except UnknownTag String
  | 0 => .ok markup
  | n + 1 => rewrites markup n >>= fun previous => (convert previous).map Conversion.markup

theorem rewrites_succ {markup previous : String} {n : Nat}
    (h : rewrites markup n = .ok previous) :
    rewrites markup (n + 1) = (convert previous).map Conversion.markup := by
  rw [rewrites, h]
  rfl

/-- What a conversion that succeeds is made of. -/
theorem exists_runs_of_convert {markup : String} {conversion : Conversion}
    (h : convert markup = .ok conversion) :
    ∃ runs, Document.ofTokens (tokenize markup).tokens = .ok runs ∧
      conversion.document = runs.compact ∧ conversion.markup = runs.compact.markup := by
  obtain ⟨hread, hmarkup⟩ := convert_eq_ok_iff.1 h
  obtain ⟨runs, hruns, hdocument, -⟩ := readMarkup_eq_ok_iff.1 hread
  exact ⟨runs, hruns, hdocument, hdocument ▸ hmarkup⟩

theorem convert_markup {markup : String} {conversion : Conversion}
    (h : convert markup = .ok conversion) : conversion.markup = conversion.document.markup :=
  (convert_eq_ok_iff.1 h).2

/-- A converted document can be written and read again. -/
theorem noTag_of_convert {markup : String} {conversion : Conversion}
    (h : convert markup = .ok conversion) :
    ∀ run ∈ conversion.document, ∀ word ∈ run.words, '<' ∉ word.toList := by
  obtain ⟨runs, hread, hdocument, -⟩ := exists_runs_of_convert h
  rw [hdocument]
  exact Document.noTag_compact (Document.noTag_of_tokenize hread)

theorem map_convert_markup (document : Document) :
    (convert document.markup).map Conversion.markup = document.reread.map Document.markup := by
  unfold convert readMarkup Document.reread
  cases hread : Document.ofTokens (tokenize document.markup).tokens with
  | error unknown => simp [hread, Except.map]
  | ok runs => simp [hread, Except.map]

theorem rewrites_succ_of_reread {markup : String} {n : Nat} {document result : Document}
    (h : rewrites markup n = .ok document.markup) (hreread : document.reread = .ok result) :
    rewrites markup (n + 1) = .ok result.markup := by
  rw [rewrites_succ h, map_convert_markup, hreread]
  rfl

namespace Document

/-- A document that two more readings bring back. -/
structure IsSettled (document : Document) : Prop where
  kept : document.IsKept
  returns : Writer.start.shown (Writer.start.shown document) = document

theorem IsKept.isSettled_shown {document : Document} (h : document.IsKept) :
    IsSettled (Writer.start.shown document) :=
  ⟨h.shown.2, h.shown_shown_shown⟩

theorem IsSettled.shown {document : Document} (h : document.IsSettled) :
    document.reread = .ok (Writer.start.shown document) ∧
      IsSettled (Writer.start.shown document) :=
  ⟨h.kept.shown.1, h.kept.isSettled_shown⟩

end Document

/-- If markup converts at all, then the first four conversions lead to a document that
is settled. -/
theorem exists_rewrites_four {markup : String} {conversion : Conversion}
    (h : convert markup = .ok conversion) :
    (∀ n, n < 4 → ∃ result, rewrites markup n = .ok result) ∧
      ∃ document : Document, document.IsSettled ∧ rewrites markup 4 = .ok document.markup := by
  have hzero : rewrites markup 0 = .ok markup := rfl
  have hone : rewrites markup 1 = .ok conversion.document.markup := by
    rw [rewrites_succ hzero, h, ← convert_markup h]
    rfl
  obtain ⟨second, hsecond, hcompact, htagged⟩ := Document.exists_reread (noTag_of_convert h)
  have htwo := rewrites_succ_of_reread hone hsecond
  obtain ⟨third, hthird, hkept⟩ := hcompact.reread_isKept htagged
  have hthree := rewrites_succ_of_reread htwo hthird
  have hfour := rewrites_succ_of_reread hthree hkept.shown.1
  refine ⟨fun n hn => ?_, _, hkept.isSettled_shown, hfour⟩
  have hcases : n = 0 ∨ n = 1 ∨ n = 2 ∨ n = 3 := by omega
  rcases hcases with rfl | rfl | rfl | rfl
  · exact ⟨_, hzero⟩
  · exact ⟨_, hone⟩
  · exact ⟨_, htwo⟩
  · exact ⟨_, hthree⟩

theorem exists_rewrites_of_le {markup : String} {conversion : Conversion}
    (h : convert markup = .ok conversion) {n : Nat} (hn : 4 ≤ n) :
    ∃ document : Document, document.IsSettled ∧ rewrites markup n = .ok document.markup := by
  induction n, hn using Nat.le_induction with
  | base => exact (exists_rewrites_four h).2
  | succ n hn ih =>
      obtain ⟨document, hsettled, hrewrites⟩ := ih
      obtain ⟨hreread, hnext⟩ := hsettled.shown
      exact ⟨_, hnext, rewrites_succ_of_reread hrewrites hreread⟩

/-- Markup that converts once converts as often as one likes, and from the fourth
conversion on every other one gives the same markup. -/
theorem rewrites_alternate {markup : String} {conversion : Conversion}
    (h : convert markup = .ok conversion) :
    (∀ n, ∃ result, rewrites markup n = .ok result) ∧
      ∀ n, 4 ≤ n → rewrites markup (n + 2) = rewrites markup n := by
  constructor
  · intro n
    by_cases hn : n < 4
    · exact (exists_rewrites_four h).1 n hn
    · obtain ⟨document, -, hrewrites⟩ := exists_rewrites_of_le h (by omega : 4 ≤ n)
      exact ⟨document.markup, hrewrites⟩
  · intro n hn
    obtain ⟨document, hsettled, hrewrites⟩ := exists_rewrites_of_le h hn
    obtain ⟨hreread, hnext⟩ := hsettled.shown
    have hone := rewrites_succ_of_reread hrewrites hreread
    have htwo := rewrites_succ_of_reread hone hnext.shown.1
    rw [htwo, hsettled.returns, hrewrites]

/-- Markup whose conversions go back and forth. -/
def restlessMarkup : String := "<B><Em>a</Em></B>b"

namespace Document

/-- The two documents that `restlessMarkup` alternates between: closing bold closes
emphasis, and the change of emphasis that is asked for toggles it again. -/
def restless (emphasis : Bool) : Document :=
  [⟨{ bold := true, emphasis := true }, ["a"]⟩, ⟨{ emphasis := emphasis }, ["b"]⟩]

theorem reread_restless (emphasis : Bool) :
    (restless emphasis).reread = .ok (restless !emphasis) := by
  have hcompact : (restless emphasis).IsCompact := by cases emphasis <;> decide
  have htagged : ∀ run ∈ restless emphasis, run.IsTagged := by cases emphasis <;> decide
  have hshown : Writer.start.shown (restless emphasis) = restless !emphasis := by
    cases emphasis <;> decide
  have hdistinct : (restless !emphasis).IsCompact := by cases emphasis <;> decide
  rw [reread_eq_shown (hcompact.isPlain htagged) (hshown ▸ hdistinct.distinct), hshown]

theorem markup_restless : (restless true).markup = restlessMarkup := by decide

end Document

theorem exists_convert_restlessMarkup :
    ∃ conversion, convert restlessMarkup = .ok conversion := by
  have hmap := map_convert_markup (Document.restless true)
  rw [Document.reread_restless, Document.markup_restless] at hmap
  cases hconvert : convert restlessMarkup with
  | error unknown => simp [hconvert, Except.map] at hmap
  | ok conversion => exact ⟨conversion, rfl⟩

theorem rewrites_restlessMarkup_alternate :
    ∃ conversion, convert restlessMarkup = .ok conversion ∧
      (∀ n, ∃ result, rewrites restlessMarkup n = .ok result) ∧
      ∀ n, 4 ≤ n → rewrites restlessMarkup (n + 2) = rewrites restlessMarkup n := by
  obtain ⟨conversion, hconvert⟩ := exists_convert_restlessMarkup
  exact ⟨conversion, hconvert, rewrites_alternate hconvert⟩

theorem rewrites_restlessMarkup_two :
    rewrites restlessMarkup 1 = .ok (Document.restless false).markup ∧
      rewrites restlessMarkup 2 = .ok restlessMarkup := by
  have hzero : rewrites restlessMarkup 0 = .ok (Document.restless true).markup :=
    congrArg Except.ok Document.markup_restless.symm
  have hone := rewrites_succ_of_reread hzero (Document.reread_restless true)
  have htwo := rewrites_succ_of_reread hone (Document.reread_restless false)
  rw [Bool.not_false, Document.markup_restless] at htwo
  exact ⟨hone, htwo⟩

theorem rewrites_restlessMarkup_add_two (n : Nat) :
    rewrites restlessMarkup (n + 2) = rewrites restlessMarkup n := by
  induction n with
  | zero => exact rewrites_restlessMarkup_two.2
  | succ n ih => rw [rewrites, ih, rewrites]

/-- Repeated conversion does not always come to rest. -/
theorem rewrites_not_settling : ¬ ∀ (markup : String) (conversion : Conversion),
    convert markup = .ok conversion →
      ∃ n, 1 ≤ n ∧ rewrites markup (n + 1) = rewrites markup n := by
  intro hsettling
  have hne : ∀ n, rewrites restlessMarkup (n + 1) ≠ rewrites restlessMarkup n := by
    intro n
    induction n with
    | zero =>
        rw [rewrites_restlessMarkup_two.1]
        decide
    | succ n ih =>
        rw [rewrites_restlessMarkup_add_two]
        exact ih.symm
  obtain ⟨conversion, hconvert⟩ := exists_convert_restlessMarkup
  obtain ⟨n, -, hn⟩ := hsettling restlessMarkup conversion hconvert
  exact hne n hn

end StyledMarkup
