import StyledMarkup.Proofs.Stretches

/-!
# Documents in two attributes

Bold, emphasis and color share one stack of tags, and each pair of them goes wrong in
a way of its own. Where one of the three is not used at all, the other two decide by
their stretches whether a document comes back:

* bold and color: a color from before bold must neither be given up inside bold nor be
  missing behind it;
* emphasis and color: behind the colored runs emphasis must be what it was in the first
  of them;
* bold and emphasis: by the end of bold emphasis must be what it was before.
-/
namespace StyledMarkup.Document

/-- Where a style can be reached unless a property is lost in a wrong way, only the ends
of the stretches count. -/
theorem forall_returns_iff_stretch_ends {p : Style → Bool} (hinitial : p .initial = false)
    {Q : Document → Run → Prop} {document : Document}
    (h : ∀ (front : Document) (next : Run) (after : Document), document = front ++ next :: after →
      (front.Returns next.style ↔
        (p front.endStyle = true → p next.style = false → Q front next))) :
    (∀ (front : Document) (next : Run) (after : Document), document = front ++ next :: after →
        front.Returns next.style) ↔
      ∀ before block after : Document, document = before ++ block ++ after →
        IsStretch (fun run => p run.style) before block after →
          ∀ next ∈ after.head?, Q (before ++ block) next := by
  rw [forall_stretch_end_iff hinitial]
  constructor
  · intro hreturns front next after hdocument
    exact (h front next after hdocument).1 (hreturns front next after hdocument)
  · intro hends front next after hdocument
    exact (h front next after hdocument).2 (hends front next after hdocument)

theorem outsideColors_of_forall {P : Style → Prop} {document : Document} (hinitial : P .initial)
    (h : ∀ run ∈ document, P run.style) : P document.outsideColors := by
  have hcolored : ∀ run ∈ document.coloredEnd, P run.style := fun run hrun =>
    h run ((List.rtakeWhile_suffix _ _).subset hrun)
  unfold outsideColors
  cases hfound : (document.coloredEnd.find? fun run => !run.style.bold).or
      document.coloredEnd.head? with
  | none => exact hinitial
  | some run =>
      rcases Option.or_eq_some_iff.1 hfound with hfind | ⟨-, hhead⟩
      · exact hcolored run (List.mem_of_find?_eq_some hfind)
      · exact hcolored run (List.mem_of_head? hhead)

theorem outsideColors_of_not_bold {document : Document}
    (h : ∀ run ∈ document, run.style.bold = false) {first : Run}
    (hfirst : first ∈ document.coloredEnd.head?) : document.outsideColors = first.style := by
  obtain ⟨rest, hcolored⟩ := List.head?_eq_some_iff.1 hfirst
  have hbold : first.style.bold = false := by
    apply h first
    apply (List.rtakeWhile_suffix (fun run : Run => run.style.color != .default) document).subset
    change first ∈ document.coloredEnd
    simp [hcolored]
  simp [outsideColors, hcolored, hbold]

section
variable {front : Document} {next : Run} {after : Document}

theorem returns_iff_of_unemphasised
    (h : ∀ run ∈ front ++ next :: after, run.style.emphasis = false) :
    front.Returns next.style ↔
      (front.endStyle.bold = true → next.style.bold = false →
        next.style.color = front.endStyle.color →
          front.outsideBold.color = front.endStyle.color) ∧
      (front.endStyle.color ≠ .default → next.style.color = .default → next.style.bold = true →
        front.endStyle.bold = true ∧ front.outsideBold.color = .default) := by
  obtain ⟨hfront, hrest⟩ := List.forall_mem_append.1 h
  have hnext : next.style.emphasis = false := hrest next List.mem_cons_self
  have hend : front.endStyle.emphasis = false :=
    endStyle_of_forall (P := fun style => style.emphasis = false) rfl hfront
  have hbold : front.outsideBold.emphasis = false :=
    outsideBold_of_forall (P := fun style => style.emphasis = false) rfl hfront
  have hcolors : front.outsideColors.emphasis = false :=
    outsideColors_of_forall (P := fun style => style.emphasis = false) rfl hfront
  unfold Returns
  grind

theorem returns_iff_of_not_bold (h : ∀ run ∈ front ++ next :: after, run.style.bold = false) :
    front.Returns next.style ↔
      ((front.endStyle.color != .default) = true → (next.style.color != .default) = false →
        ∀ first ∈ front.coloredEnd.head?, next.style.emphasis = first.style.emphasis) := by
  obtain ⟨hfront, hrest⟩ := List.forall_mem_append.1 h
  have hnext : next.style.bold = false := hrest next List.mem_cons_self
  have hend : front.endStyle.bold = false :=
    endStyle_of_forall (P := fun style => style.bold = false) rfl hfront
  by_cases hcolor : front.endStyle.color = .default
  · simp [Returns, hend, hcolor]
  · obtain ⟨last, hlast, -⟩ := exists_mem_coloredEnd hcolor
    obtain ⟨first, rest, hcolored⟩ := List.exists_cons_of_ne_nil (List.ne_nil_of_mem hlast)
    have hfirst : front.coloredEnd.head? = some first := by rw [hcolored, List.head?_cons]
    simp [Returns, hend, hcolor, hnext, hfirst, outsideColors_of_not_bold hfront hfirst]

theorem returns_iff_of_colorless
    (h : ∀ run ∈ front ++ next :: after, run.style.color = .default) :
    front.Returns next.style ↔
      (front.endStyle.bold = true → next.style.bold = false →
        front.endStyle.emphasis = front.outsideBold.emphasis) := by
  obtain ⟨hfront, hrest⟩ := List.forall_mem_append.1 h
  have hnext : next.style.color = .default := hrest next List.mem_cons_self
  have hend : front.endStyle.color = .default :=
    endStyle_of_forall (P := fun style => style.color = .default) rfl hfront
  have hbold : front.outsideBold.color = .default :=
    outsideBold_of_forall (P := fun style => style.color = .default) rfl hfront
  unfold Returns
  grind

end

/-- Inside bold the default color can be reached from a color exactly if no color is open
around bold, and right at its beginning it never can. -/
theorem forall_default_iff_stretches {document : Document} :
    (∀ (front : Document) (next : Run) (after : Document), document = front ++ next :: after →
        front.endStyle.color ≠ .default → next.style.color = .default → next.style.bold = true →
          front.endStyle.bold = true ∧ front.outsideBold.color = .default) ↔
      ∀ before block after : Document, document = before ++ block ++ after →
        IsStretch (fun run => run.style.bold) before block after →
          before.endStyle.color = .default ∨ ∀ run ∈ block, run.style.color ≠ .default := by
  constructor
  · intro h before block after hdocument hstretch
    by_contra hnot
    rw [not_or, not_forall] at hnot
    obtain ⟨hbefore, run, hrun⟩ := hnot
    -- The first run of the stretch that gives the color up.
    have hsome : (block.find? fun run => run.style.color == .default).isSome = true := by
      rw [List.find?_isSome]
      exact ⟨run, by simpa using hrun⟩
    obtain ⟨first, hfirst⟩ := Option.isSome_iff_exists.1 hsome
    obtain ⟨hdefault, colored, rest, hblock, hcolored⟩ := List.find?_eq_some_iff_append.1 hfirst
    have hinside : ∀ other ∈ colored, other.style.bold = true := fun other hother =>
      hstretch.inside other (by simp [hblock, hother])
    have hend : (endStyle (before ++ colored)).color ≠ .default :=
      endStyle_append_induction (P := fun style => style.color ≠ .default) hbefore
        fun other hother => by simpa using hcolored other hother
    have houtside := (h (before ++ colored) first (rest ++ after)
      (by simp [hdocument, hblock]) hend (by simpa using hdefault)
      (hstretch.inside first (by simp [hblock]))).2
    rw [outsideBold, rdropWhile_append_eq hstretch.start hinside] at houtside
    exact hbefore houtside
  · intro h front next after hdocument hend hdefault hbold
    have hstretch := isStretch_of_split (p := fun run => run.style.bold) front (next :: after)
      (by simp [hbold])
    have houtside : front.outsideBold.color = .default := by
      rcases h _ _ _ (hdocument.trans (append_eq_stretch _ _ _)) hstretch with houtside | hcolored
      · exact houtside
      · exact absurd hdefault (hcolored next (by simp [hbold]))
    refine ⟨?_, houtside⟩
    by_contra hoff
    rw [outsideBold_eq_endStyle (by simpa using hoff)] at houtside
    exact hend houtside

/-- Behind bold a color can be kept exactly if it was open around bold. -/
theorem forall_kept_iff_stretches {document : Document} :
    (∀ (front : Document) (next : Run) (after : Document), document = front ++ next :: after →
        front.endStyle.bold = true → next.style.bold = false →
          next.style.color = front.endStyle.color →
            front.outsideBold.color = front.endStyle.color) ↔
      ∀ before block after : Document, document = before ++ block ++ after →
        IsStretch (fun run => run.style.bold) before block after →
          ∀ next ∈ after.head?, next.style.color = block.endStyle.color →
            before.endStyle.color = block.endStyle.color := by
  rw [← forall_stretch_end_iff (p := Style.bold) rfl]
  constructor
  · intro h before block after hdocument hstretch next hnext
    have hend := h before block after hdocument hstretch next hnext
    rwa [hstretch.endStyle_eq, hstretch.outsideBold_eq] at hend
  · intro h before block after hdocument hstretch next hnext
    rw [hstretch.endStyle_eq, hstretch.outsideBold_eq]
    exact h before block after hdocument hstretch next hnext

theorem forall_returns_iff_of_unemphasised {document : Document}
    (h : ∀ run ∈ document, run.style.emphasis = false) :
    (∀ (front : Document) (next : Run) (after : Document), document = front ++ next :: after →
        front.Returns next.style) ↔
      (∀ before block after : Document, document = before ++ block ++ after →
        IsStretch (fun run => run.style.bold) before block after →
          before.endStyle.color = .default ∨ ∀ run ∈ block, run.style.color ≠ .default) ∧
      ∀ before block after : Document, document = before ++ block ++ after →
        IsStretch (fun run => run.style.bold) before block after →
          ∀ next ∈ after.head?, next.style.color = block.endStyle.color →
            before.endStyle.color = block.endStyle.color := by
  rw [← forall_default_iff_stretches, ← forall_kept_iff_stretches]
  constructor
  · intro hreturns
    constructor
    · rintro front next after rfl
      exact ((returns_iff_of_unemphasised h).1 (hreturns front next after rfl)).2
    · rintro front next after rfl
      exact ((returns_iff_of_unemphasised h).1 (hreturns front next after rfl)).1
  · rintro ⟨hdefault, hkept⟩ front next after rfl
    exact (returns_iff_of_unemphasised h).2
      ⟨hkept front next after rfl, hdefault front next after rfl⟩

/-- A compact document in bold and color comes back exactly if no stretch of bold runs
gives up a color from before it or goes on in a color behind it that was not open before.
So it does if bold never changes, or if there is no color. -/
theorem reread_eq_self_iff_of_unemphasised {document : Document} (hcompact : document.IsCompact)
    (htagged : ∀ run ∈ document, run.IsTagged)
    (h : ∀ run ∈ document, run.style.emphasis = false) :
    (document.reread = .ok document ↔
      ∀ before block after : Document, document = before ++ block ++ after →
        IsStretch (fun run => run.style.bold) before block after →
          (before.endStyle.color = .default ∨ ∀ run ∈ block, run.style.color ≠ .default) ∧
          ∀ next ∈ after.head?, next.style.color = block.endStyle.color →
            before.endStyle.color = block.endStyle.color) ∧
    ((∃ bold, ∀ run ∈ document, run.style.bold = bold) → document.reread = .ok document) ∧
    ((∀ run ∈ document, run.style.color = .default) → document.reread = .ok document) := by
  have hiff := (reread_eq_self_iff_forall_returns hcompact htagged).trans
    (forall_returns_iff_of_unemphasised h)
  simp only [← forall_and] at hiff
  refine ⟨hiff, fun hbold => hiff.2 ?_, fun hcolor => hiff.2 ?_⟩
  · obtain ⟨bold, hbold⟩ := hbold
    rintro before block after rfl hstretch
    obtain ⟨rfl, rfl⟩ := hstretch.eq_nil hbold
    exact ⟨.inl rfl, by simp⟩
  · rintro before block after rfl hstretch
    have hbefore : before.endStyle.color = .default :=
      endStyle_of_forall (P := fun style => style.color = .default) rfl
        fun run hrun => hcolor run (by simp [hrun])
    have hblock : block.endStyle.color = .default :=
      endStyle_of_forall (P := fun style => style.color = .default) rfl
        fun run hrun => hcolor run (by simp [hrun])
    exact ⟨.inl hbefore, fun _ _ _ => hbefore.trans hblock.symm⟩

/-- A color that is opened inside bold and asked for behind it as well. -/
def colorOutlivingBold : Document :=
  [⟨{ bold := true, color := .red }, ["a"]⟩, ⟨{ color := .red }, ["b"]⟩]

theorem reread_colorOutlivingBold_ne_self :
    colorOutlivingBold.IsCompact ∧ (∀ run ∈ colorOutlivingBold, run.IsTagged) ∧
      (∀ run ∈ colorOutlivingBold, run.style.emphasis = false) ∧
      colorOutlivingBold.reread ≠ .ok colorOutlivingBold := by
  have hcompact : colorOutlivingBold.IsCompact := by decide
  have htagged : ∀ run ∈ colorOutlivingBold, run.IsTagged := by decide
  have hemphasis : ∀ run ∈ colorOutlivingBold, run.style.emphasis = false := by decide
  refine ⟨hcompact, htagged, hemphasis, fun hself => ?_⟩
  have hcolors := (reread_eq_self_iff_of_unemphasised hcompact htagged hemphasis).1.1 hself
    [] (colorOutlivingBold.take 1) (colorOutlivingBold.drop 1) rfl (by decide)
  exact absurd (hcolors.2 _ rfl rfl) (by decide)

/-- A compact document in emphasis and color comes back exactly if behind every stretch
of colored runs emphasis is what it was in the first of them. -/
theorem reread_eq_self_iff_of_not_bold {document : Document} (hcompact : document.IsCompact)
    (htagged : ∀ run ∈ document, run.IsTagged) (h : ∀ run ∈ document, run.style.bold = false) :
    document.reread = .ok document ↔
      ∀ before block after : Document, document = before ++ block ++ after →
        IsStretch (fun run => run.style.color != .default) before block after →
          ∀ first ∈ block.head?, ∀ next ∈ after.head?,
            next.style.emphasis = first.style.emphasis := by
  have hreturns : ∀ (front : Document) (next : Run) (after : Document),
      document = front ++ next :: after → (front.Returns next.style ↔
        ((front.endStyle.color != .default) = true → (next.style.color != .default) = false →
          ∀ first ∈ front.coloredEnd.head?, next.style.emphasis = first.style.emphasis)) := by
    rintro front next after rfl
    exact returns_iff_of_not_bold h
  rw [reread_eq_self_iff_forall_returns hcompact htagged,
    forall_returns_iff_stretch_ends (p := fun style => style.color != .default) rfl hreturns]
  constructor
  · intro hends before block after hdocument hstretch first hfirst next hnext
    have hend := hends before block after hdocument hstretch next hnext first
    rw [hstretch.coloredEnd_eq] at hend
    exact hend hfirst
  · intro hstretches before block after hdocument hstretch next hnext first hfirst
    rw [hstretch.coloredEnd_eq] at hfirst
    exact hstretches before block after hdocument hstretch first hfirst next hnext

/-- Emphasis that is turned on where color ends: its tag is closed with the color. -/
def emphasisBehindColor : Document :=
  [⟨{ color := .red }, ["a"]⟩, ⟨{ emphasis := true }, ["b"]⟩]

theorem reread_emphasisBehindColor_ne_self :
    emphasisBehindColor.IsCompact ∧ (∀ run ∈ emphasisBehindColor, run.IsTagged) ∧
      (∀ run ∈ emphasisBehindColor, run.style.bold = false) ∧
      emphasisBehindColor.reread ≠ .ok emphasisBehindColor := by
  have hcompact : emphasisBehindColor.IsCompact := by decide
  have htagged : ∀ run ∈ emphasisBehindColor, run.IsTagged := by decide
  have hbold : ∀ run ∈ emphasisBehindColor, run.style.bold = false := by decide
  refine ⟨hcompact, htagged, hbold, fun hself => ?_⟩
  have hemphasis := (reread_eq_self_iff_of_not_bold hcompact htagged hbold).1 hself
    [] (emphasisBehindColor.take 1) (emphasisBehindColor.drop 1) rfl (by decide) _ rfl _ rfl
  exact absurd hemphasis (by decide)

/-- A compact document in bold and emphasis comes back exactly if every stretch of bold
runs that others follow ends in the emphasis from before it. -/
theorem reread_eq_self_iff_of_colorless {document : Document} (hcompact : document.IsCompact)
    (htagged : ∀ run ∈ document, run.IsTagged)
    (h : ∀ run ∈ document, run.style.color = .default) :
    document.reread = .ok document ↔
      ∀ before block after : Document, document = before ++ block ++ after →
        IsStretch (fun run => run.style.bold) before block after → after ≠ [] →
          block.endStyle.emphasis = before.endStyle.emphasis := by
  have hreturns : ∀ (front : Document) (next : Run) (after : Document),
      document = front ++ next :: after → (front.Returns next.style ↔
        (front.endStyle.bold = true → next.style.bold = false →
          front.endStyle.emphasis = front.outsideBold.emphasis)) := by
    rintro front next after rfl
    exact returns_iff_of_colorless h
  rw [reread_eq_self_iff_forall_returns hcompact htagged,
    forall_returns_iff_stretch_ends (p := Style.bold) rfl hreturns]
  constructor
  · intro hends before block after hdocument hstretch hafter
    obtain ⟨next, rest, rfl⟩ := List.exists_cons_of_ne_nil hafter
    have hend := hends before block (next :: rest) hdocument hstretch next rfl
    rwa [hstretch.endStyle_eq, hstretch.outsideBold_eq] at hend
  · intro hstretches before block after hdocument hstretch next hnext
    rw [hstretch.endStyle_eq, hstretch.outsideBold_eq]
    refine hstretches before block after hdocument hstretch ?_
    rintro rfl
    simp at hnext

/-- Emphasis that is turned off where bold begins: closing bold turns it on again. -/
def emphasisAroundBold : Document :=
  [⟨{ emphasis := true }, ["a"]⟩, ⟨{ bold := true }, ["b"]⟩, ⟨{}, ["c"]⟩]

theorem reread_emphasisAroundBold_ne_self :
    emphasisAroundBold.IsCompact ∧ (∀ run ∈ emphasisAroundBold, run.IsTagged) ∧
      (∀ run ∈ emphasisAroundBold, run.style.color = .default) ∧
      emphasisAroundBold.reread ≠ .ok emphasisAroundBold := by
  have hcompact : emphasisAroundBold.IsCompact := by decide
  have htagged : ∀ run ∈ emphasisAroundBold, run.IsTagged := by decide
  have hcolor : ∀ run ∈ emphasisAroundBold, run.style.color = .default := by decide
  refine ⟨hcompact, htagged, hcolor, fun hself => ?_⟩
  have hemphasis := (reread_eq_self_iff_of_colorless hcompact htagged hcolor).1 hself
    (emphasisAroundBold.take 1) ((emphasisAroundBold.drop 1).take 1) (emphasisAroundBold.drop 2)
    rfl (by decide) (by decide)
  exact absurd hemphasis (by decide)

end StyledMarkup.Document
