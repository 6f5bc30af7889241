import Mathlib.Data.List.DropRight
import StyledMarkup.Proofs.Faithfulness
import StyledMarkup.Proofs.LevelTurns

/-!
# Which style changes come back

Bold is turned off by closing every tag down to the innermost `B`, and the default
color is reached by closing tags until no color is open. Neither writes again what
it closed on the way, so a document comes back only if its style changes can do
without. Here this is decided from the runs alone.

Where bold ends, the tags go back to the style before the bold runs; where color
ends, to the style under the colored runs, which is that of the first of them that
is not bold or, if all are bold, of the first of all. What has to be repaired from
there must not need a tag that is not written.
-/
namespace StyledMarkup

namespace Document

/-- The style of the last run. -/
def endStyle (document : Document) : Style := (document.getLast?.map Run.style).getD .initial

/-- The style before the bold runs at the end. -/
def outsideBold (document : Document) : Style :=
  endStyle (document.rdropWhile fun run => run.style.bold)

/-- The colored runs at the end. -/
def coloredEnd (document : Document) : Document :=
  document.rtakeWhile fun run => run.style.color != .default

/-- The style under the colored runs at the end, color apart. -/
def outsideColors (document : Document) : Style :=
  (((document.coloredEnd.find? fun run => !run.style.bold).or document.coloredEnd.head?).map
    Run.style).getD .initial

/-- Whether the style of the next run can be reached from the document with the tags
that are written. -/
def Returns (before : Document) (next : Style) : Prop :=
  -- Closing bold falls back to the style outside it.
  if before.endStyle.bold = true ∧ next.bold = false then
    (before.outsideBold.color = .default ∨ next.color ≠ .default →
      before.endStyle.emphasis = before.outsideBold.emphasis) ∧
    (next.color = before.endStyle.color → before.outsideBold.color = before.endStyle.color) ∧
    (next.color = .default → before.outsideBold.color ≠ .default →
      next.emphasis = before.outsideColors.emphasis)
  -- Closing the colors falls back to the style under them.
  else if before.endStyle.color ≠ .default ∧ next.color = .default then
    (next.bold = true → before.endStyle.bold = true ∧ before.outsideBold.color = .default) ∧
      next.emphasis = before.outsideColors.emphasis
  else True

@[simp] theorem endStyle_nil : endStyle [] = .initial := rfl

@[simp] theorem endStyle_append (document : Document) (run : Run) :
    endStyle (document ++ [run]) = run.style := by
  simp [endStyle]

theorem outsideBold_append (document : Document) (run : Run) :
    outsideBold (document ++ [run]) =
      if run.style.bold then document.outsideBold else run.style := by
  unfold outsideBold
  rw [List.rdropWhile_concat]
  split
  · rfl
  · exact endStyle_append document run

theorem coloredEnd_append (document : Document) (run : Run) :
    coloredEnd (document ++ [run]) =
      if run.style.color ≠ .default then document.coloredEnd ++ [run] else [] := by
  unfold coloredEnd
  rw [List.rtakeWhile_concat]
  simp

/-- No run is colored at the end if the last is not. -/
theorem coloredEnd_eq_nil {document : Document} (h : document.endStyle.color = .default) :
    document.coloredEnd = [] := by
  cases document using List.reverseRecOn with
  | nil => rfl
  | append_singleton document run =>
      rw [endStyle_append] at h
      rw [coloredEnd_append, if_neg (by simpa using h)]

theorem exists_mem_coloredEnd {document : Document} (h : document.endStyle.color ≠ .default) :
    ∃ run ∈ document.coloredEnd, run.style = document.endStyle := by
  cases document using List.reverseRecOn with
  | nil => exact absurd rfl h
  | append_singleton document run =>
      rw [endStyle_append] at h ⊢
      rw [coloredEnd_append, if_pos h]
      exact ⟨run, by simp, rfl⟩

theorem outsideBold_eq_endStyle {document : Document} (h : document.endStyle.bold = false) :
    document.outsideBold = document.endStyle := by
  cases document using List.reverseRecOn with
  | nil => rfl
  | append_singleton document run =>
      rw [endStyle_append] at h ⊢
      rw [outsideBold_append, if_neg (by simp [h])]

/-- A colored run goes on in what it follows if there is no other style to find. -/
theorem outsideColors_append_of_kept {document : Document} {run : Run}
    (hrun : run.style.color ≠ .default) (hend : document.endStyle.color ≠ .default)
    (h : run.style.bold = true ∨ ∃ other ∈ document.coloredEnd, other.style.bold = false) :
    outsideColors (document ++ [run]) = document.outsideColors := by
  obtain ⟨last, hlast, -⟩ := exists_mem_coloredEnd hend
  have hhead : (document.coloredEnd ++ [run]).head? = document.coloredEnd.head? := by
    obtain ⟨first, rest, heq⟩ := List.exists_cons_of_ne_nil (List.ne_nil_of_mem hlast)
    simp [heq]
  have hfind : ((document.coloredEnd ++ [run]).find? fun run => !run.style.bold) =
      document.coloredEnd.find? fun run => !run.style.bold := by
    rw [List.find?_append]
    rcases h with hbold | ⟨other, hother, hbold⟩
    · simp [hbold]
    · have hsome : (document.coloredEnd.find? fun run => !run.style.bold).isSome = true :=
        List.find?_isSome.2 ⟨other, hother, by simp [hbold]⟩
      obtain ⟨found, hfound⟩ := Option.isSome_iff_exists.1 hsome
      simp [hfound]
  unfold outsideColors
  rw [coloredEnd_append, if_pos hrun, hfind, hhead]

/-- A colored run begins anew where no color was, and where only bold runs were
colored if it is not bold. -/
theorem outsideColors_append_of_new {document : Document} {run : Run}
    (hrun : run.style.color ≠ .default)
    (h : document.endStyle.color = .default ∨
      run.style.bold = false ∧ ∀ other ∈ document.coloredEnd, other.style.bold = true) :
    outsideColors (document ++ [run]) = run.style := by
  unfold outsideColors
  rw [coloredEnd_append, if_pos hrun]
  rcases h with hend | ⟨hbold, hothers⟩
  · rw [coloredEnd_eq_nil hend]
    cases hbold : run.style.bold <;> simp [hbold]
  · have hnone : (document.coloredEnd.find? fun run => !run.style.bold) = none := by
      rw [List.find?_eq_none]
      intro other hother
      simp [hothers other hother]
    simp [List.find?_append, hnone, hbold]

/-- What the levels behind a document record of it, if all of it is shown as it is. -/
structure Records (document : Document) (levels : Levels) : Prop where
  top : levels.top = document.endStyle.look
  outsideBold : document.endStyle.bold = true → levels.underBold = document.outsideBold.look
  outsideColors : document.endStyle.color ≠ .default →
    levels.underColors.emphasis = document.outsideColors.emphasis
  nested : document.endStyle.bold = true → document.endStyle.color ≠ .default →
    (document.outsideBold.color ≠ .default ↔
      ∃ run ∈ document.coloredEnd, run.style.bold = false)

theorem records_nil : Records [] .outermost := by
  constructor <;> simp [Levels.outermost, Style.look, Style.initial]

theorem Records.keeps {document : Document} {levels : Levels} (h : document.Records levels) :
    levels.Keeps document.endStyle.look := by
  constructor <;> rw [h.top]

theorem xor_returns (outer last next : Bool) :
    (outer ^^ (last ^^ next)) = next ↔ last = outer := by
  cases outer <;> cases last <;> cases next <;> decide

theorem top_turn_of_boldOff {document : Document} {levels : Levels} {next : Style}
    (hfits : levels.Fits document.endStyle.look) (h : document.Records levels)
    (hbold : document.endStyle.bold = true) (hnext : next.bold = false) :
    (levels.turn document.endStyle.look next.look).top = next.look ↔ document.Returns next := by
  have houter := h.outsideBold hbold
  have honce := hfits.once
  have hcolorless := hfits.colorless
  have hmeets := hfits.boldOutside
  rw [houter] at honce hmeets
  rw [Returns, if_pos ⟨hbold, hnext⟩, Levels.turn_of_boldOff hfits next.look hbold hnext, houter]
  by_cases hsame : next.color = document.endStyle.color
  · have hturned : document.endStyle.look.color = next.look.color := hsame.symm
    rw [Levels.turnColor, if_pos hturned, Look.ext_iff]
    simp only [Look.toggled, Style.look] at honce ⊢
    rw [xor_returns]
    grind
  · have hturned : document.endStyle.look.color ≠ next.look.color := Ne.symm hsame
    by_cases hdefault : next.color = .default
    · have hcolored : document.endStyle.color ≠ .default := fun hend =>
        hsame (hdefault.trans hend.symm)
      have hground := h.outsideColors hcolored
      have hnone : next.look.color = .default := hdefault
      rw [Levels.turnColor, if_neg hturned, if_pos hnone, Levels.unpaint, Look.ext_iff]
      by_cases houtside : document.outsideBold.look.color = .default
      · rw [if_pos houtside]
        simp only [Look.toggled, Style.look] at honce houtside ⊢
        rw [xor_returns]
        grind
      · rw [if_neg houtside]
        simp only [Style.look] at hmeets houtside ⊢
        grind
    · have hsome : next.look.color ≠ .default := hdefault
      rw [Levels.turnColor, if_neg hturned, if_neg hsome, Levels.paint, Look.ext_iff]
      simp only [Look.toggled, Style.look] at honce ⊢
      rw [xor_returns]
      grind

theorem not_boldOff {before after : Bool} (h : before = true → after = true) :
    ¬(before = true ∧ after = false) := by
  rintro ⟨hbefore, hafter⟩
  rw [h hbefore] at hafter
  simp at hafter

/-- Where the levels record the document, the next style is shown as it is exactly if
it can be reached. -/
theorem top_turn_iff_returns {document : Document} {levels : Levels}
    (hfits : levels.Fits document.endStyle.look) (h : document.Records levels) (next : Style) :
    (levels.turn document.endStyle.look next.look).top = next.look ↔ document.Returns next := by
  rcases Look.change_cases document.endStyle.look next.look with
    ⟨hbefore, hafter⟩ | ⟨hbold, ⟨hbefore, hafter⟩ | hcolor⟩
  · exact top_turn_of_boldOff hfits h hbefore hafter
  · have hkept : document.endStyle.bold = true → next.bold = true := hbold
    have hunpaint : document.endStyle.color ≠ .default ∧ next.color = .default :=
      ⟨hbefore, hafter⟩
    have hturn := Levels.turn_of_unpaints hfits h.keeps next.look hbold hbefore hafter
    have hcolorless := hfits.colorless
    have hmeets := hfits.boldOutside
    have houter := h.outsideBold
    have htop := h.top
    have hground := h.outsideColors hbefore
    rw [Returns, if_neg (not_boldOff hkept), if_pos hunpaint, hturn, Levels.unpaint,
      Look.ext_iff]
    simp only [Style.look] at htop houter ⊢
    grind
  · have hkept : document.endStyle.bold = true → next.bold = true := hbold
    have hturn := Levels.turn_of_opens hfits h.keeps next.look hbold hcolor
    have hunpaint : ¬(document.endStyle.color ≠ .default ∧ next.color = .default) :=
      fun hchange => hchange.1 (hcolor hchange.2)
    rw [Returns, if_neg (not_boldOff hkept), if_neg hunpaint, hturn, h.top]
    simp [Look.toggled]

theorem records_append_of {document : Document} {levels : Levels} {run : Run}
    (htop : levels.top = run.style.look)
    (houtside : run.style.bold = true → levels.underBold = document.outsideBold.look)
    (hground : run.style.color ≠ .default →
      levels.underColors.emphasis = (outsideColors (document ++ [run])).emphasis)
    (hnested : run.style.bold = true → run.style.color ≠ .default →
      (document.outsideBold.color ≠ .default ↔
        ∃ other ∈ document.coloredEnd, other.style.bold = false)) :
    (document ++ [run]).Records levels := by
  constructor
  · rw [endStyle_append, htop]
  · rw [endStyle_append]
    intro hbold
    rw [outsideBold_append, if_pos hbold, houtside hbold]
  · rw [endStyle_append]
    exact hground
  · rw [endStyle_append]
    intro hbold hcolor
    rw [outsideBold_append, if_pos hbold, coloredEnd_append, if_pos hcolor,
      hnested hbold hcolor]
    simp [hbold]

theorem records_append_of_boldOff {document : Document} {levels : Levels} {run : Run}
    (hfits : levels.Fits document.endStyle.look) (h : document.Records levels)
    (hbold : document.endStyle.bold = true) (hrun : run.style.bold = false)
    (hnext : (levels.turn document.endStyle.look run.style.look).top = run.style.look) :
    (document ++ [run]).Records (levels.turn document.endStyle.look run.style.look) := by
  refine records_append_of hnext (by simp [hrun]) ?_ (by simp [hrun])
  intro hcolor
  have hlook : run.style.look.color ≠ .default := hcolor
  have houter := h.outsideBold hbold
  have hturn := Levels.turn_of_boldOff hfits run.style.look hbold hrun
  rw [houter] at hturn
  have hemphasis := congrArg Look.emphasis hnext
  rw [hturn, Levels.top_emphasis_turnColor _ hlook] at hemphasis
  rw [hturn, Levels.underColors_turnColor _ hlook]
  by_cases houtside : document.outsideBold.look.color = .default
  · have hnew : document.endStyle.color = .default ∨
        run.style.bold = false ∧ ∀ other ∈ document.coloredEnd, other.style.bold = true := by
      by_cases hend : document.endStyle.color = .default
      · exact .inl hend
      · refine .inr ⟨hrun, fun other hother => ?_⟩
        by_contra hother'
        exact (h.nested hbold hend).2 ⟨other, hother, by simpa using hother'⟩ houtside
    rw [if_pos houtside, outsideColors_append_of_new hcolor hnew]
    exact hemphasis
  · have hend : document.endStyle.color ≠ .default := by
      intro hend
      have htop : levels.top.color = .default := by
        rw [h.top]
        exact hend
      have hunder := hfits.underBold_color htop
      rw [houter] at hunder
      exact houtside hunder
    have hmeets := (h.nested hbold hend).1 houtside
    rw [if_neg houtside, outsideColors_append_of_kept hcolor hend (.inr hmeets)]
    exact h.outsideColors hend

theorem records_append_of_unpaints {document : Document} {levels : Levels} {run : Run}
    (hfits : levels.Fits document.endStyle.look) (h : document.Records levels)
    (hkept : document.endStyle.bold = true → run.style.bold = true)
    (hcolor : document.endStyle.color ≠ .default) (hrun : run.style.color = .default)
    (hnext : (levels.turn document.endStyle.look run.style.look).top = run.style.look) :
    (document ++ [run]).Records (levels.turn document.endStyle.look run.style.look) := by
  have hturn := Levels.turn_of_unpaints hfits h.keeps run.style.look hkept hcolor hrun
  rw [hturn] at hnext ⊢
  refine records_append_of hnext ?_ (by simp [hrun]) (by simp [hrun])
  intro hbold
  have hground : levels.underColors.bold = true := (congrArg Look.bold hnext).trans hbold
  have htop := (hfits.boldOutside.1 hground).1
  rw [h.top] at htop
  rw [Levels.unpaint, if_pos hground]
  exact h.outsideBold htop

theorem records_append_of_opens {document : Document} {levels : Levels} {run : Run}
    (hfits : levels.Fits document.endStyle.look) (h : document.Records levels)
    (hkept : document.endStyle.bold = true → run.style.bold = true)
    (hcolor : run.style.color = .default → document.endStyle.color = .default) :
    (document ++ [run]).Records (levels.turn document.endStyle.look run.style.look) := by
  have hturn := Levels.turn_of_opens hfits h.keeps run.style.look hkept hcolor
  have htop : (levels.turn document.endStyle.look run.style.look).top = run.style.look := by
    rw [hturn, h.top]
    simp [Look.toggled]
  refine records_append_of htop ?_ ?_ ?_
  · intro hrun
    rw [hturn]
    cases hend : document.endStyle.bold with
    | true =>
        have hsame : document.endStyle.look.bold = run.style.look.bold := hend.trans hrun.symm
        simp only [if_pos hsame]
        exact h.outsideBold hend
    | false =>
        have hchange : document.endStyle.look.bold ≠ run.style.look.bold := by
          change document.endStyle.bold ≠ run.style.bold
          simp [hend, hrun]
        simp only [if_neg hchange]
        rw [h.top, outsideBold_eq_endStyle hend]
  · intro hrun
    have hemphasis := congrArg Look.emphasis htop
    rw [hturn] at hemphasis ⊢
    dsimp only at hemphasis ⊢
    by_cases hend : document.endStyle.look.color = .default
    · rw [if_pos hend, outsideColors_append_of_new hrun (.inl hend)]
      exact hemphasis
    · rw [if_neg hend, outsideColors_append_of_kept hrun hend]
      · exact h.outsideColors hend
      · by_contra hnone
        rw [not_or] at hnone
        obtain ⟨last, hlast, hstyle⟩ := exists_mem_coloredEnd hend
        have hbold : last.style.bold = true := by
          by_contra hoff
          exact hnone.2 ⟨last, hlast, by simpa using hoff⟩
        rw [hstyle] at hbold
        exact hnone.1 (hkept hbold)
  · intro hrun hrunColor
    cases hbold : document.endStyle.bold with
    | true =>
        by_cases hend : document.endStyle.color = .default
        · have hfree : levels.top.color = .default := by
            rw [h.top]
            exact hend
          have hunder := hfits.underBold_color hfree
          rw [h.outsideBold hbold] at hunder
          have houtside : document.outsideBold.color = .default := hunder
          simp [coloredEnd_eq_nil hend, houtside]
        · exact h.nested hbold hend
    | false =>
        rw [outsideBold_eq_endStyle hbold]
        constructor
        · intro hend
          obtain ⟨last, hlast, hstyle⟩ := exists_mem_coloredEnd hend
          exact ⟨last, hlast, by rw [hstyle, hbold]⟩
        · rintro ⟨other, hother, -⟩ hend
          simp [coloredEnd_eq_nil hend] at hother

theorem records_append {document : Document} {levels : Levels}
    (hfits : levels.Fits document.endStyle.look) (h : document.Records levels) (run : Run)
    (hnext : (levels.turn document.endStyle.look run.style.look).top = run.style.look) :
    (document ++ [run]).Records (levels.turn document.endStyle.look run.style.look) := by
  rcases Look.change_cases document.endStyle.look run.style.look with
    ⟨hbefore, hafter⟩ | ⟨hbold, ⟨hbefore, hafter⟩ | hcolor⟩
  · exact records_append_of_boldOff hfits h hbefore hafter hnext
  · exact records_append_of_unpaints hfits h hbold hbefore hafter hnext
  · exact records_append_of_opens hfits h hbold hcolor

/-- A statement about every run with what is before it, run by run from the end. -/
theorem forall_split_append {P : Document → Run → Prop} {document : Document} {last : Run} :
    (∀ before run after, document ++ [last] = before ++ run :: after → P before run) ↔
      (∀ before run after, document = before ++ run :: after → P before run) ∧
        P document last := by
  constructor
  · intro h
    refine ⟨?_, h document last [] rfl⟩
    rintro before run after rfl
    exact h before run (after ++ [last]) (by simp)
  · rintro ⟨h, hlast⟩ before run after heq
    cases after using List.reverseRecOn with
    | nil =>
        obtain ⟨rfl, rfl⟩ := List.append_singleton_inj.1 heq
        exact hlast
    | append_singleton after other =>
        rw [← List.cons_append, ← List.append_assoc, List.append_singleton_inj] at heq
        exact h before run after heq.1

theorem advanceAll_style (document : Document) :
    (Writer.start.advanceAll document).style = document.endStyle := by
  cases document using List.reverseRecOn with
  | nil => rfl
  | append_singleton document run =>
      rw [Writer.advanceAll_append, endStyle_append]
      rfl

theorem levels_advanceAll_append {document : Document} {run : Run}
    (h : ∀ other ∈ document ++ [run], other.style.IsTagged) :
    (Writer.start.advanceAll document).levels.Fits document.endStyle.look ∧
      (openAt document run).levels =
        (Writer.start.advanceAll document).levels.turn document.endStyle.look run.style.look := by
  have hrunning : ∀ other ∈ document ++ [run], other.style.literal = false := by
    intro other hother
    rw [h other hother]
  have hsound := Writer.isSound_start.advanceAll fun other hother =>
    hrunning other (List.mem_append_left _ hother)
  have hlevels := Writer.levels_advance hsound (hrunning run (by simp))
  have hfits := hsound.fits
  rw [Writer.look, advanceAll_style] at hlevels hfits
  exact ⟨hfits, hlevels⟩

/-- Where every run is shown as it is, the levels record the document, and the next
run is shown as it is exactly if it can be reached. -/
theorem forall_shown_iff_returns {document : Document}
    (h : ∀ run ∈ document, run.style.IsTagged) :
    ((∀ before run after, document = before ++ run :: after →
        (openAt before run).shown = run.style) ↔
      ∀ (before : Document) (run : Run) (after : Document),
        document = before ++ run :: after → before.Returns run.style) ∧
    ((∀ before run after, document = before ++ run :: after →
        (openAt before run).shown = run.style) →
      document.Records (Writer.start.advanceAll document).levels) := by
  induction document using List.reverseRecOn with
  | nil => exact ⟨by simp, fun _ => records_nil⟩
  | append_singleton document run ih =>
      obtain ⟨hiff, hrecords⟩ := ih fun other hother => h other (List.mem_append_left _ hother)
      obtain ⟨hfits, hlevels⟩ := levels_advanceAll_append h
      have hshown : (openAt document run).shown = run.style ↔
          (openAt document run).levels.top = run.style.look :=
        TagStack.shown_eq_iff_look (h run (by simp))
      rw [hlevels] at hshown
      rw [forall_split_append, forall_split_append, hshown]
      constructor
      · rw [and_congr_right_iff.2 fun hbefore =>
          top_turn_iff_returns hfits (hrecords hbefore) run.style, hiff]
      · rintro ⟨hbefore, hrun⟩
        have happend := records_append hfits (hrecords hbefore) run hrun
        rw [← hlevels] at happend
        rw [Writer.advanceAll_append]
        exact happend

theorem reread_eq_self_iff_forall_returns {document : Document} (hcompact : document.IsCompact)
    (h : ∀ run ∈ document, run.IsTagged) :
    document.reread = .ok document ↔
      ∀ (before : Document) (run : Run) (after : Document),
        document = before ++ run :: after → before.Returns run.style := by
  rw [reread_eq_self_iff_shown hcompact h, Writer.shown_eq_self_iff]
  exact (forall_shown_iff_returns fun run hrun => (h run hrun).style).1

/-- A compact document of tagged runs is read back in any case. It comes back
unchanged exactly if the style of every run can be reached from the runs before it. -/
theorem reread_eq_self_iff_returns {document : Document} (hcompact : document.IsCompact)
    (h : ∀ run ∈ document, run.IsTagged) :
    (∃ result, document.reread = .ok result) ∧
      (document.reread = .ok document ↔
        ∀ (before : Document) (run : Run) (after : Document),
          document = before ++ run :: after → before.Returns run.style) :=
  ⟨⟨_, reread_eq (hcompact.isPlain h)⟩, reread_eq_self_iff_forall_returns hcompact h⟩

/-- Bold and emphasis end together, so closing bold has already closed what the toggle
of emphasis is written for. -/
def emphasisInBold : Document :=
  [⟨{ bold := true, emphasis := true }, ["a"]⟩, ⟨{}, ["b"]⟩]

/-- A color that begins and ends in bold. -/
def colorInBold : Document :=
  [⟨{ bold := true }, ["a"]⟩, ⟨{ bold := true, color := .red }, ["b"]⟩,
    ⟨{ bold := true }, ["c"]⟩, ⟨{}, ["d"]⟩]

/-- Emphasis in bold cannot be ended together with bold, a color in bold can. -/
theorem reread_emphasisInBold_iff_returns :
    emphasisInBold.IsCompact ∧ (∀ run ∈ emphasisInBold, run.IsTagged) ∧
      emphasisInBold.markup = "<B><Em>a</Em></B><Em>b</Em>" ∧
      emphasisInBold.reread = .ok
        [⟨{ bold := true, emphasis := true }, ["a"]⟩, ⟨{ emphasis := true }, ["b"]⟩] ∧
      (¬ ∀ (before : Document) (run : Run) (after : Document),
        emphasisInBold = before ++ run :: after → before.Returns run.style) ∧
      colorInBold.markup = "<B>a<r>b</r>c</B>d" ∧
      colorInBold.reread = .ok colorInBold ∧
      ∀ (before : Document) (run : Run) (after : Document),
        colorInBold = before ++ run :: after → before.Returns run.style := by
  have hcompact : emphasisInBold.IsCompact := by decide
  have htagged : ∀ run ∈ emphasisInBold, run.IsTagged := by decide
  have hreread : emphasisInBold.reread = .ok
      [⟨{ bold := true, emphasis := true }, ["a"]⟩, ⟨{ emphasis := true }, ["b"]⟩] := by
    decide +kernel
  have hself : colorInBold.reread = .ok colorInBold := by decide +kernel
  refine ⟨hcompact, htagged, by decide +kernel, hreread, fun hreturns => ?_, by decide +kernel,
    hself, (reread_eq_self_iff_returns (by decide) (by decide)).2.1 hself⟩
  have hsame := (reread_eq_self_iff_returns hcompact htagged).2.2 hreturns
  rw [hreread] at hsame
  exact absurd (Except.ok.inj hsame) (by decide)

/-- Not every compact document of tagged runs comes back unchanged. -/
theorem reread_not_always_self : ¬ ∀ document : Document, document.IsCompact →
    (∀ run ∈ document, run.IsTagged) → document.reread = .ok document := by
  intro hself
  have hcompact : emphasisInBold.IsCompact := by decide
  have htagged : ∀ run ∈ emphasisInBold, run.IsTagged := by decide
  have hshown := (reread_eq_self_iff_shown hcompact htagged).1
    (hself emphasisInBold hcompact htagged)
  exact absurd hshown (by decide)

end Document

end StyledMarkup
