import StyledMarkup.Conversion
import StyledMarkup.Proofs.Faithfulness
import StyledMarkup.Proofs.LongestMatch

/-!
# Documents that were read

Text in markup holds no `<`, so no word of a document that was read from markup
holds one, and the document can be written and read again. What is then read back
from the writer's own tags has in addition only styles that these tags stand for,
and only proper words: literal text has become running text. From the second
reading on every document is compact and tagged.
-/
namespace StyledMarkup

namespace Token

/-- Fusing texts adds no tag. -/
theorem opening_mem_of_mem_fuse {name : String} {tokens : List Token}
    (h : .opening name ∈ fuse tokens) : .opening name ∈ tokens := by
  induction tokens with
  | nil => exact h
  | cons token tokens ih =>
      rw [fuse_cons] at h
      rcases token.attach_cases (fuse tokens) with heq | ⟨-, heq⟩ | ⟨a, b, rest, -, hfuse, heq⟩
      · rw [heq] at h
        rcases List.mem_cons.1 h with rfl | h
        · exact List.mem_cons_self
        · exact List.mem_cons_of_mem _ (ih h)
      · rw [heq] at h
        exact List.mem_cons_of_mem _ (ih h)
      · rw [heq] at h
        have hrest : .opening name ∈ rest := by simpa using h
        exact List.mem_cons_of_mem _ (ih (hfuse ▸ List.mem_cons_of_mem _ hrest))

end Token

namespace Scope

/-- Every run that is read comes from one text, in the scope that leads to it. -/
theorem exists_text_of_mem_read {scope : Scope} {tokens : List Token} {runs : Document}
    (h : scope.read tokens = .ok runs) {run : Run} (hrun : run ∈ runs) :
    ∃ front written back reached, tokens = front ++ .text written :: back ∧
      scope.advanceAll front = .ok reached ∧ run = Run.ofText reached.style written := by
  induction tokens generalizing scope runs with
  | nil =>
      cases h
      simp at hrun
  | cons token tokens ih =>
      obtain ⟨next, later, hnext, hrest, rfl⟩ := exists_of_read_cons h
      rcases List.mem_append.1 hrun with hrun | hrun
      · cases token with
        | text written =>
            have hread : run = Run.ofText scope.style written := by
              by_cases hempty : written.isEmpty = true
              · simp [runs, hempty] at hrun
              · simpa [runs, hempty] using hrun
            exact ⟨[], written, tokens, scope, rfl, rfl, hread⟩
        | opening name => simp [runs] at hrun
        | closing name => simp [runs] at hrun
      · obtain ⟨front, written, back, reached, rfl, hreached, heq⟩ := ih hrest hrun
        exact ⟨token :: front, written, back, reached, rfl,
          (advanceAll_cons hnext front).trans hreached, heq⟩

/-- Every style in force or to return to is one that tags of a writer stand for. -/
structure IsTagged (scope : Scope) : Prop where
  style : scope.style.IsTagged
  saved : ∀ style ∈ scope.saved, style.IsTagged

theorem isTagged_outermost : outermost.IsTagged := ⟨rfl, by simp [outermost]⟩

theorem IsTagged.advance {scope next : Scope} (h : scope.IsTagged) {token : Token}
    (htoken : ∀ name, token = .opening name → TagStack.Writable name)
    (hnext : scope.advance token = .ok next) : next.IsTagged := by
  cases token with
  | text written =>
      cases hnext
      exact h
  | opening name =>
      have hstyle : ∃ style, scope.style.apply name = .ok style ∧ style.IsTagged := by
        have hplain := h.style
        rcases htoken name rfl with rfl | rfl | ⟨color, hcolor⟩
        · exact ⟨_, Style.apply_boldTag _, by rw [hplain]; rfl⟩
        · exact ⟨_, Style.apply_emphasisTag _, by rw [hplain]; rfl⟩
        · exact ⟨_, Style.apply_colorTag _ hcolor, by rw [hplain]; rfl⟩
      obtain ⟨style, happly, htagged⟩ := hstyle
      simp only [Scope.advance, enter, happly, Except.map, Except.ok.injEq] at hnext
      subst hnext
      refine ⟨htagged, fun other hother => ?_⟩
      rcases List.mem_cons.1 hother with rfl | hother
      · exact h.style
      · exact h.saved other hother
  | closing name =>
      obtain ⟨style, saved⟩ := scope
      cases saved with
      | nil =>
          cases hnext
          exact h
      | cons outer saved =>
          cases hnext
          exact ⟨h.saved outer List.mem_cons_self, fun other hother =>
            h.saved other (List.mem_cons_of_mem _ hother)⟩

theorem IsTagged.advanceAll {scope reached : Scope} (h : scope.IsTagged) {tokens : List Token}
    (htokens : ∀ name, .opening name ∈ tokens → TagStack.Writable name)
    (hreached : scope.advanceAll tokens = .ok reached) : reached.IsTagged := by
  induction tokens generalizing scope with
  | nil =>
      cases hreached
      exact h
  | cons token tokens ih =>
      obtain ⟨next, hnext, hrest⟩ := exists_of_advanceAll_cons hreached
      have hadvance := h.advance (fun name heq => htokens name (by simp [heq])) hnext
      exact ih hadvance (fun name hname => htokens name (List.mem_cons_of_mem _ hname)) hrest

end Scope

namespace Writer

theorem writable_of_mem_write (writer : Writer) (document : Document) {name : String}
    (h : .opening name ∈ writer.write document) : TagStack.Writable name := by
  induction document generalizing writer with
  | nil => simp [write] at h
  | cons run rest ih =>
      rcases List.mem_append.1 h with h | h
      · obtain ⟨edit, hedit, htoken⟩ := List.mem_map.1 h
        cases edit with
        | opens opened =>
            obtain rfl := Token.opening.inj htoken
            exact writable_of_mem_edits hedit
        | closes closed => simp [TagEdit.token] at htoken
      · rcases List.mem_cons.1 h with h | h
        · simp at h
        · exact ih _ h

end Writer

namespace Document

theorem noTag_ofText {style : Style} {written : String} (h : '<' ∉ written.toList) :
    ∀ word ∈ (Run.ofText style written).words, '<' ∉ word.toList := by
  intro word hword
  unfold Run.ofText at hword
  split at hword
  · obtain rfl := List.mem_singleton.1 hword
    exact h
  · exact fun hmem => h ((Words.isWord_of_mem_split hword).2 _ hmem)

/-- No word that was read from markup holds a `<`. -/
theorem noTag_of_tokenize {markup : String} {runs : Document}
    (h : ofTokens (tokenize markup).tokens = .ok runs) :
    ∀ run ∈ runs, ∀ word ∈ run.words, '<' ∉ word.toList := by
  intro run hrun
  obtain ⟨front, written, back, reached, htokens, -, rfl⟩ := Scope.exists_text_of_mem_read h hrun
  apply noTag_ofText
  intro hmem
  have hlegible : (Token.text written).Legible :=
    Token.legible_tokenize markup _ (by rw [htokens]; simp)
  exact absurd (hlegible '<' hmem) (by decide)

theorem noTag_absorb {a b : Run} (ha : ∀ word ∈ a.words, '<' ∉ word.toList)
    (hb : ∀ word ∈ b.words, '<' ∉ word.toList) :
    ∀ word ∈ (a.absorb b).words, '<' ∉ word.toList := by
  cases hliteral : a.style.literal with
  | false => exact Run.forall_mem_absorb hliteral ha hb
  | true =>
      intro word hword
      obtain ⟨style, words⟩ := a
      cases hnext : b.words with
      | nil =>
          rw [Run.absorb, if_pos hliteral, hnext] at hword
          exact ha word (by simpa using hword)
      | cons text others =>
          have htext := hb text (by simp [hnext])
          cases words with
          | nil =>
              rw [Run.absorb, if_pos hliteral, hnext] at hword
              obtain rfl := List.mem_singleton.1 hword
              exact htext
          | cons head rest =>
              rw [Run.absorb, if_pos hliteral, hnext] at hword
              rcases List.mem_cons.1 hword with rfl | hword
              · have hhead := ha head (by simp)
                simp [hhead, htext]
              · exact ha word (by simp [hword])

theorem noTag_compact {document : Document}
    (h : ∀ run ∈ document, ∀ word ∈ run.words, '<' ∉ word.toList) :
    ∀ run ∈ document.compact, ∀ word ∈ run.words, '<' ∉ word.toList :=
  forall_mem_compact (fun _ _ _ => noTag_absorb) h

/-- A document that holds no `<` is read back compact and tagged. -/
theorem exists_reread {document : Document}
    (h : ∀ run ∈ document, ∀ word ∈ run.words, '<' ∉ word.toList) :
    ∃ result, document.reread = .ok result ∧ result.IsCompact ∧ ∀ run ∈ result, run.IsTagged := by
  have hreach : Scope.outermost.advanceAll (Token.fuse document.tokens) = .ok .outermost := by
    rw [Scope.advanceAll_fuse]
    exact Writer.scope_write Writer.start document
  obtain ⟨runs, hread⟩ := Scope.exists_read_of_advanceAll hreach
  have hruns : ofTokens (tokenize document.markup).tokens = .ok runs := by
    rw [tokenize_markup h]
    exact hread
  refine ⟨runs.compact, by rw [reread, hruns]; rfl, isCompact_compact runs, ?_⟩
  have htagged : ∀ run ∈ runs, run.IsTagged := by
    intro run hrun
    have hnoTag := noTag_of_tokenize hruns run hrun
    obtain ⟨front, written, back, reached, htokens, hfront, rfl⟩ :=
      Scope.exists_text_of_mem_read hread hrun
    have hstyle : reached.style.IsTagged := by
      refine (Scope.isTagged_outermost.advanceAll (fun name hname => ?_) hfront).style
      have hmem : .opening name ∈ Token.fuse document.tokens := by
        rw [htokens]
        exact List.mem_append_left _ hname
      exact Writer.writable_of_mem_write _ document (Token.opening_mem_of_mem_fuse hmem)
    refine ⟨hstyle, fun word hword => ?_, hnoTag⟩
    rw [Run.ofText, if_neg (by rw [hstyle]; simp)] at hword
    exact (Words.isWord_of_mem_split hword).1
  refine forall_mem_compact (fun a b _ ha hb => ?_) htagged
  refine ⟨?_, ?_, noTag_absorb ha.noTag hb.noTag⟩
  · rw [Run.absorb_style]
    exact ha.style
  · exact Run.forall_mem_absorb ha.running ha.isWord hb.isWord

end Document

end StyledMarkup
