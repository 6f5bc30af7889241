import StyledMarkup.Proofs.StyleHistory

/-!
# Longest stretches

A stretch is a part of a document in which every run has a property and which cannot
be made longer on either side. Whether a document comes back was decided run by run
from all that is before a run. Where a stretch of bold or of colored runs ends, that
is a matter of the run before the stretch, of the stretch itself and of the run
behind it.
-/
namespace StyledMarkup.Document

/-- The runs of `block` have the property, and those that meet it on either side do not. -/
structure IsStretch (p : Run → Bool) (before block after : Document) : Prop where
  nonempty : block ≠ []
  inside : ∀ run ∈ block, p run = true
  start : ∀ run ∈ before.getLast?, p run = false
  stop : ∀ run ∈ after.head?, p run = false

instance (p : Run → Bool) (before block after : Document) :
    Decidable (IsStretch p before block after) :=
  decidable_of_iff (block ≠ [] ∧ (∀ run ∈ block, p run = true) ∧
      (∀ run ∈ before.getLast?, p run = false) ∧ ∀ run ∈ after.head?, p run = false)
    ⟨fun h => ⟨h.1, h.2.1, h.2.2.1, h.2.2.2⟩, fun h => ⟨h.nonempty, h.inside, h.start, h.stop⟩⟩

/-- What holds of the style before some runs and of all of them holds of the last. -/
theorem endStyle_append_induction {P : Style → Prop} {before block : Document}
    (hbefore : P before.endStyle) (hblock : ∀ run ∈ block, P run.style) :
    P (endStyle (before ++ block)) := by
  cases block using List.reverseRecOn with
  | nil => simpa using hbefore
  | append_singleton block run =>
      rw [← List.append_assoc, endStyle_append]
      exact hblock run (by simp)

theorem endStyle_of_forall {P : Style → Prop} {document : Document} (hinitial : P .initial)
    (h : ∀ run ∈ document, P run.style) : P document.endStyle :=
  have hnone : P (endStyle []) := hinitial
  endStyle_append_induction hnone h

theorem outsideBold_of_forall {P : Style → Prop} {document : Document} (hinitial : P .initial)
    (h : ∀ run ∈ document, P run.style) : P document.outsideBold :=
  endStyle_of_forall hinitial fun run hrun => h run ((List.rdropWhile_prefix _ _).subset hrun)

section
variable {p : Run → Bool} {before block after : Document}

theorem rdropWhile_append_eq (hstart : ∀ run ∈ before.getLast?, p run = false)
    (hblock : ∀ run ∈ block, p run = true) : (before ++ block).rdropWhile p = before := by
  induction block using List.reverseRecOn with
  | nil =>
      rw [List.append_nil, List.rdropWhile_eq_self_iff]
      intro hne
      simp [hstart _ (List.getLast?_eq_some_getLast hne)]
  | append_singleton block run ih =>
      rw [← List.append_assoc, List.rdropWhile_concat_pos _ _ _ (hblock run (by simp))]
      exact ih fun other hother => hblock other (List.mem_append_left _ hother)

theorem rtakeWhile_append_eq (hstart : ∀ run ∈ before.getLast?, p run = false)
    (hblock : ∀ run ∈ block, p run = true) : (before ++ block).rtakeWhile p = block := by
  have hsplit : (before ++ block).rdropWhile p ++ (before ++ block).rtakeWhile p =
      before ++ block := List.rdropWhile_append_rtakeWhile
  rw [rdropWhile_append_eq hstart hblock] at hsplit
  exact List.append_cancel_left hsplit

theorem append_eq_stretch (p : Run → Bool) (front back : Document) :
    front ++ back = front.rdropWhile p ++ (front.rtakeWhile p ++ back.takeWhile p) ++
      back.dropWhile p := by
  have hfront : front.rdropWhile p ++ front.rtakeWhile p = front :=
    List.rdropWhile_append_rtakeWhile
  rw [← List.append_assoc, hfront, List.append_assoc, List.takeWhile_append_dropWhile]

/-- The runs with the property on both sides of a place make up a stretch, if there
are any. -/
theorem isStretch_of_split (front back : Document)
    (h : front.rtakeWhile p ++ back.takeWhile p ≠ []) :
    IsStretch p (front.rdropWhile p) (front.rtakeWhile p ++ back.takeWhile p)
      (back.dropWhile p) where
  nonempty := h
  inside run hrun := by
    rcases List.mem_append.1 hrun with hrun | hrun
    · exact List.mem_rtakeWhile_imp hrun
    · exact List.mem_takeWhile_imp hrun
  start run hrun := by
    have hne : front.rdropWhile p ≠ [] := by
      intro hnil
      simp [hnil] at hrun
    have hlast := List.rdropWhile_last_not p front hne
    rw [Option.mem_def, List.getLast?_eq_some_getLast hne, Option.some.injEq] at hrun
    rw [hrun] at hlast
    simpa using hlast
  stop run hrun := by
    have hfirst := List.head?_dropWhile_not p back
    rw [Option.mem_def.1 hrun] at hfirst
    simpa using hfirst

/-- Where all runs have the property or none has it, nothing is beside a stretch. -/
theorem IsStretch.eq_nil (h : IsStretch p before block after) {on : Bool}
    (hall : ∀ run ∈ before ++ block ++ after, p run = on) : before = [] ∧ after = [] := by
  obtain ⟨run, hrun⟩ := List.exists_mem_of_ne_nil block h.nonempty
  have hon : on = true := (hall run (by simp [hrun])).symm.trans (h.inside run hrun)
  constructor
  · by_contra hne
    have hlast := h.start _ (List.getLast?_eq_some_getLast hne)
    rw [hall _ (by simp), hon] at hlast
    exact Bool.noConfusion hlast
  · by_contra hne
    have hfirst := h.stop _ (List.head?_eq_some_head hne)
    rw [hall _ (by simp), hon] at hfirst
    exact Bool.noConfusion hfirst

theorem IsStretch.endStyle_eq (h : IsStretch p before block after) :
    endStyle (before ++ block) = block.endStyle := by
  simp [endStyle, List.getLast?_append_of_ne_nil before h.nonempty]

end

theorem IsStretch.outsideBold_eq {before block after : Document}
    (h : IsStretch (fun run => run.style.bold) before block after) :
    outsideBold (before ++ block) = before.endStyle :=
  congrArg endStyle (rdropWhile_append_eq h.start h.inside)

theorem IsStretch.coloredEnd_eq {before block after : Document}
    (h : IsStretch (fun run => run.style.color != .default) before block after) :
    coloredEnd (before ++ block) = block :=
  rtakeWhile_append_eq h.start h.inside

section
variable {p : Style → Bool}

theorem IsStretch.endStyle_inside {before block after : Document}
    (h : IsStretch (fun run => p run.style) before block after) :
    p (endStyle (before ++ block)) = true := by
  cases block using List.reverseRecOn with
  | nil => exact absurd rfl h.nonempty
  | append_singleton block run =>
      rw [← List.append_assoc, endStyle_append]
      exact h.inside run (by simp)

theorem rtakeWhile_ne_nil {front : Document} (hinitial : p .initial = false)
    (h : p front.endStyle = true) : (front.rtakeWhile fun run => p run.style) ≠ [] := by
  cases front using List.reverseRecOn with
  | nil => simp [hinitial] at h
  | append_singleton front run =>
      rw [endStyle_append] at h
      simp [h]

/-- The stretches that end before a run are those behind which the property is lost. -/
theorem forall_stretch_end_iff (hinitial : p .initial = false) {Q : Document → Run → Prop}
    {document : Document} :
    (∀ before block after, document = before ++ block ++ after →
        IsStretch (fun run => p run.style) before block after →
          ∀ next ∈ after.head?, Q (before ++ block) next) ↔
      ∀ front next after, document = front ++ next :: after →
        p front.endStyle = true → p next.style = false → Q front next := by
  constructor
  · intro h front next after hdocument hend hnext
    have hne := rtakeWhile_ne_nil hinitial hend
    have hstretch :=
      isStretch_of_split front (next :: after) (List.append_ne_nil_of_left_ne_nil hne _)
    rw [List.takeWhile_cons_of_neg (by simp [hnext]), List.dropWhile_cons_of_neg (by simp [hnext]),
      List.append_nil] at hstretch
    have hfront := h _ _ _ (by rw [List.rdropWhile_append_rtakeWhile, hdocument]) hstretch next rfl
    rwa [List.rdropWhile_append_rtakeWhile] at hfront
  · intro h before block after hdocument hstretch next hnext
    obtain ⟨rest, rfl⟩ := List.head?_eq_some_iff.1 hnext
    have hend := hstretch.endStyle_inside
    exact h (before ++ block) next rest hdocument hend (hstretch.stop next hnext)

end

end StyledMarkup.Document
