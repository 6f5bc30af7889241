import Mathlib.Data.List.Infix
import StyledMarkup.Compaction

/-!
# Compact documents

A compact document has no empty run and no two neighbours that are alike.
Compaction makes every document compact and leaves a compact one, and no other,
as it is. In running text it moves no word: the words with their styles are the
same before and after.
-/
namespace StyledMarkup

namespace Style

theorem alike_iff_eq {a b : Style} (ha : a.literal = false) (hb : b.literal = false) :
    a.alike b = true ↔ a = b := by
  simp [alike_iff, visible, ha, hb]

theorem literal_of_alike {a b : Style} (h : a.alike b = true) : a.literal = b.literal := by
  rw [alike_eq] at h
  simp_all

/-- Styles that are alike are like the same styles. -/
theorem alike_congr {a b : Style} (h : a.alike b = true) (c : Style) : a.alike c = b.alike c := by
  rw [alike, alike, alike_iff.1 h]

end Style

namespace Run

theorem isEmpty_of_running {run : Run} (h : run.style.literal = false) :
    run.isEmpty = true ↔ run.words = [] := by
  unfold isEmpty
  split <;> simp_all

@[simp] theorem absorb_style (run next : Run) : (run.absorb next).style = run.style := by
  unfold absorb
  split
  · split <;> rfl
  · rfl

theorem absorb_words {run : Run} (h : run.style.literal = false) (next : Run) :
    (run.absorb next).words = run.words ++ next.words := by
  simp [absorb, h]

theorem forall_mem_absorb {P : String → Prop} {run next : Run} (h : run.style.literal = false)
    (hrun : ∀ word ∈ run.words, P word) (hnext : ∀ word ∈ next.words, P word) :
    ∀ word ∈ (run.absorb next).words, P word := by
  rw [absorb_words h]
  exact List.forall_mem_append.2 ⟨hrun, hnext⟩

/-- A run that holds something goes on holding it. -/
theorem isEmpty_absorb {run : Run} (h : run.isEmpty = false) (next : Run) :
    (run.absorb next).isEmpty = false := by
  cases hliteral : run.style.literal with
  | false =>
      rw [Bool.eq_false_iff, Ne, isEmpty_of_running (by simpa using hliteral),
        absorb_words hliteral]
      rw [Bool.eq_false_iff, Ne, isEmpty_of_running hliteral] at h
      simp [h]
  | true =>
      obtain ⟨style, words⟩ := run
      cases words with
      | nil => simp [isEmpty] at h
      | cons head rest =>
          cases hnext : next.words with
          | nil => simpa [absorb, hliteral, hnext] using h
          | cons text others =>
              cases rest with
              | nil => simp_all [absorb, isEmpty]
              | cons second rest => simp_all [absorb, isEmpty]

end Run

namespace Document

structure IsCompact (document : Document) : Prop where
  filled : ∀ run ∈ document, run.isEmpty = false
  distinct : document.IsChain fun a b => a.style.alike b.style = false

instance (document : Document) : Decidable document.IsCompact :=
  decidable_of_iff ((∀ run ∈ document, run.isEmpty = false) ∧
      document.IsChain fun a b => a.style.alike b.style = false)
    ⟨fun h => ⟨h.1, h.2⟩, fun h => ⟨h.filled, h.distinct⟩⟩

theorem isCompact_nil : IsCompact [] := ⟨by simp, .nil⟩

theorem IsCompact.tail {run : Run} {rest : Document} (h : IsCompact (run :: rest)) :
    IsCompact rest :=
  ⟨fun other hother => h.filled other (List.mem_cons_of_mem _ hother), h.distinct.of_cons⟩

theorem IsCompact.words_ne_nil {document : Document} (h : document.IsCompact) {run : Run}
    (hrun : run ∈ document) (hrunning : run.style.literal = false) : run.words ≠ [] := by
  intro hnil
  have hfilled := h.filled run hrun
  rw [(Run.isEmpty_of_running hrunning).2 hnil] at hfilled
  simp at hfilled

theorem compact_cons_of_empty {run : Run} (h : run.isEmpty = true) (rest : Document) :
    compact (run :: rest) = compact rest := by
  rw [compact, if_pos h]

theorem compact_cons_of_filled {run : Run} (h : run.isEmpty = false) (rest : Document) :
    compact (run :: rest) = compactFrom run rest := by
  rw [compact, if_neg (by simp [h])]

theorem compactFrom_cons_of_empty {run : Run} (h : run.isEmpty = true) (last : Run)
    (rest : Document) : compactFrom last (run :: rest) = compactFrom last rest := by
  rw [compactFrom, if_pos h]

theorem compactFrom_cons_of_alike {last run : Run} (h : run.isEmpty = false)
    (halike : last.style.alike run.style = true) (rest : Document) :
    compactFrom last (run :: rest) = compactFrom (last.absorb run) rest := by
  rw [compactFrom, if_neg (by simp [h]), if_pos halike]

theorem compactFrom_cons_of_distinct {last run : Run} (h : run.isEmpty = false)
    (hdistinct : last.style.alike run.style = false) (rest : Document) :
    compactFrom last (run :: rest) = last :: compactFrom run rest := by
  rw [compactFrom, if_neg (by simp [h]), if_neg (by simp [hdistinct])]

/-- The run that is kept comes first, possibly grown. -/
theorem compactFrom_eq_cons (last : Run) (document : Document) :
    ∃ first rest, compactFrom last document = first :: rest ∧ first.style = last.style := by
  induction document generalizing last with
  | nil => exact ⟨last, [], rfl, rfl⟩
  | cons run rest ih =>
      unfold compactFrom
      split
      · exact ih last
      · split
        · obtain ⟨first, others, heq, hstyle⟩ := ih (last.absorb run)
          exact ⟨first, others, heq, hstyle.trans (Run.absorb_style last run)⟩
        · exact ⟨last, _, rfl, rfl⟩

theorem isCompact_compactFrom {last : Run} (h : last.isEmpty = false) (document : Document) :
    (compactFrom last document).IsCompact := by
  induction document generalizing last with
  | nil => exact ⟨by simpa [compactFrom] using h, .singleton last⟩
  | cons run rest ih =>
      unfold compactFrom
      split
      · exact ih h
      · rename_i hrun
        split
        · exact ih (Run.isEmpty_absorb h run)
        · rename_i halike
          have hrest := ih (by simpa using hrun)
          obtain ⟨first, others, heq, hstyle⟩ := compactFrom_eq_cons run rest
          rw [heq] at hrest ⊢
          refine ⟨?_, ?_⟩
          · intro other hother
            rcases List.mem_cons.1 hother with rfl | hother
            · exact h
            · exact hrest.filled other hother
          · refine List.IsChain.cons_cons ?_ hrest.distinct
            rw [hstyle]
            simpa using halike

theorem isCompact_compact (document : Document) : document.compact.IsCompact := by
  induction document with
  | nil => exact isCompact_nil
  | cons run rest ih =>
      unfold compact
      split
      · exact ih
      · rename_i hrun
        exact isCompact_compactFrom (by simpa using hrun) rest

theorem compactFrom_eq_self {last : Run} {document : Document}
    (h : IsCompact (last :: document)) : compactFrom last document = last :: document := by
  induction document generalizing last with
  | nil => rfl
  | cons run rest ih =>
      have hrun : run.isEmpty = false := h.filled run (by simp)
      have halike : last.style.alike run.style = false := h.distinct.rel
      rw [compactFrom_cons_of_distinct hrun halike, ih h.tail]

theorem compact_eq_self {document : Document} (h : document.IsCompact) :
    document.compact = document := by
  cases document with
  | nil => rfl
  | cons run rest =>
      rw [compact_cons_of_filled (h.filled run List.mem_cons_self), compactFrom_eq_self h]

/-- A run that is kept keeps its style, so no other styles come up. -/
theorem style_sublist_compactFrom (last : Run) (document : Document) :
    ((compactFrom last document).map Run.style).Sublist ((last :: document).map Run.style) := by
  induction document generalizing last with
  | nil => exact .refl _
  | cons run rest ih =>
      unfold compactFrom
      split
      · exact (ih last).trans (((List.sublist_cons_self run rest).cons_cons last).map Run.style)
      · split
        · have hgrown := ih (last.absorb run)
          rw [List.map_cons, Run.absorb_style, ← List.map_cons] at hgrown
          exact hgrown.trans (((List.sublist_cons_self run rest).cons_cons last).map Run.style)
        · exact (ih run).cons_cons last.style

theorem style_sublist_compact (document : Document) :
    (document.compact.map Run.style).Sublist (document.map Run.style) := by
  induction document with
  | nil => exact .refl _
  | cons run rest ih =>
      unfold compact
      split
      · exact ih.cons run.style
      · exact style_sublist_compactFrom run rest

theorem length_compact_le (document : Document) : document.compact.length ≤ document.length := by
  have hlength := (style_sublist_compact document).length_le
  rwa [List.length_map, List.length_map] at hlength

/-- Compaction makes every document compact, with no more runs than it had, and leaves as it
is what is compact and nothing else. -/
theorem compact_normalizes (document : Document) :
    document.compact.IsCompact ∧ document.compact.length ≤ document.length ∧
      (document.compact = document ↔ document.IsCompact) := by
  refine ⟨isCompact_compact document, length_compact_le document, ?_, compact_eq_self⟩
  intro hself
  rw [← hself]
  exact isCompact_compact document

/-- Not every run without text is empty, and runs become neighbours when an empty one between
them is left out. -/
example :
    let entries : Run := ⟨{ literal := true }, ["", ""]⟩
    compact [entries] = [entries] ∧
      compact [⟨{ color := .red }, ["a"]⟩, ⟨{ literal := true }, []⟩, ⟨{ color := .red }, [""]⟩] =
        [⟨{ color := .red }, ["a", ""]⟩] := by
  decide

/-- What every run has and growing keeps is kept by compaction. -/
theorem forall_mem_compact {P : Run → Prop}
    (habsorb : ∀ a b, a.style.alike b.style = true → P a → P b → P (a.absorb b))
    {document : Document} (h : ∀ run ∈ document, P run) : ∀ run ∈ document.compact, P run := by
  have hfrom : ∀ (last : Run) (rest : Document), P last → (∀ run ∈ rest, P run) →
      ∀ run ∈ compactFrom last rest, P run := by
    intro last rest hlast hrest
    induction rest generalizing last with
    | nil => simpa [compactFrom] using hlast
    | cons run rest ih =>
        have hrun := hrest run List.mem_cons_self
        have htail := fun other hother => hrest other (List.mem_cons_of_mem run hother)
        unfold compactFrom
        split
        · exact ih last hlast htail
        · split
          · rename_i halike
            exact ih _ (habsorb last run halike hlast hrun) htail
          · intro other hother
            rcases List.mem_cons.1 hother with rfl | hother
            · exact hlast
            · exact ih run hrun htail other hother
  induction document with
  | nil => simp [compact]
  | cons run rest ih =>
      have htail := fun other hother => h other (List.mem_cons_of_mem run hother)
      unfold compact
      split
      · exact ih htail
      · exact hfrom run rest (h run List.mem_cons_self) htail

section Content

variable {α : Type} {P : Run → Prop} {content : Run → List α}
  (hempty : ∀ run, P run → run.isEmpty = true → content run = [])
  (hkeep : ∀ a b, a.style.alike b.style = true → P a → P b → P (a.absorb b))
  (habsorb : ∀ a b, a.style.alike b.style = true → P a → P b →
    content (a.absorb b) = content a ++ content b)

include hempty hkeep habsorb

theorem flatMap_compactFrom {last : Run} {document : Document}
    (h : ∀ run ∈ last :: document, P run) :
    (compactFrom last document).flatMap content = (last :: document).flatMap content := by
  induction document generalizing last with
  | nil => rfl
  | cons run rest ih =>
      obtain ⟨hlast, htail⟩ := List.forall_mem_cons.1 h
      obtain ⟨hrun, hrest⟩ := List.forall_mem_cons.1 htail
      unfold compactFrom
      split
      · rename_i hnothing
        rw [ih (List.forall_mem_cons.2 ⟨hlast, hrest⟩)]
        simp [hempty run hrun hnothing]
      · split
        · rename_i halike
          rw [ih (List.forall_mem_cons.2 ⟨hkeep last run halike hlast hrun, hrest⟩)]
          simp [habsorb last run halike hlast hrun]
        · rw [List.flatMap_cons, ih htail, ← List.flatMap_cons]

/-- What runs hold is kept by compaction, if a run that takes in another holds what both did
and an empty one holds nothing. -/
theorem flatMap_compact {document : Document} (h : ∀ run ∈ document, P run) :
    document.compact.flatMap content = document.flatMap content := by
  induction document with
  | nil => rfl
  | cons run rest ih =>
      obtain ⟨hrun, hrest⟩ := List.forall_mem_cons.1 h
      unfold compact
      split
      · rename_i hnothing
        rw [ih hrest, List.flatMap_cons, hempty run hrun hnothing, List.nil_append]
      · exact flatMap_compactFrom hempty hkeep habsorb h

end Content

/-- The words of a document, each with its style. -/
def marks (document : Document) : List (Style × String) :=
  document.flatMap fun run => run.words.map (run.style, ·)

@[simp] theorem marks_nil : marks [] = [] := rfl

@[simp] theorem marks_cons (run : Run) (rest : Document) :
    marks (run :: rest) = run.words.map (run.style, ·) ++ marks rest := rfl

theorem marks_compact {document : Document}
    (h : ∀ run ∈ document, run.style.literal = false) :
    marks document.compact = marks document := by
  refine flatMap_compact (fun run hrun hnothing => ?_) (fun a b _ ha _ => ?_)
    (fun a b halike ha hb => ?_) h
  · rw [(Run.isEmpty_of_running hrun).1 hnothing, List.map_nil]
  · rw [Run.absorb_style, ha]
  · have hstyle : a.style = b.style := (Style.alike_iff_eq ha hb).1 halike
    rw [Run.absorb_style, Run.absorb_words ha, List.map_append, hstyle]

end Document

end StyledMarkup
