import StyledMarkup.Proofs.NormalForm

/-!
# Compaction in pieces

A document may be made compact in pieces: each piece on its own, and then once more what
the pieces make together. The result is the same as that of one pass over the whole, down
to the emphasis of literal runs and to the entries that a literal run gives up. It does not
matter where the pieces meet, be it among empty runs or inside a group that becomes one run.

Two facts carry this. A run takes in two others one by one or as the run that they become,
which is the same; and likeness is an equivalence, so that a run may be compared with the
first run of its group or with the one before it.
-/
namespace StyledMarkup

/-- Runs are taken in one by one or as the run that they become. -/
theorem Run.absorb_assoc {a b : Run} (h : a.style.literal = b.style.literal) (c : Run) :
    (a.absorb b).absorb c = a.absorb (b.absorb c) := by
  obtain ⟨style, words⟩ := a
  cases hliteral : style.literal with
  | false =>
      have hb : b.style.literal = false := h.symm.trans hliteral
      simp [absorb, hliteral, hb]
  | true =>
      have hb : b.style.literal = true := h.symm.trans hliteral
      -- Only the first entry of each run counts, and there may be none.
      cases words <;> cases hwords : b.words <;> cases hnext : c.words <;>
        simp [absorb, hliteral, hb, hwords, hnext, String.append_assoc]

namespace Document

theorem compactFrom_cons_cons_of_empty {next : Run} (h : next.isEmpty = true) (last run : Run)
    (rest : Document) : compactFrom last (run :: next :: rest) = compactFrom last (run :: rest) := by
  simp only [compactFrom, h, if_true]

/-- Two neighbours that are alike may be joined beforehand. -/
theorem compactFrom_cons_absorb {run next : Run} (h : run.isEmpty = false)
    (hnext : next.isEmpty = false) (hsame : run.style.alike next.style = true) (last : Run)
    (rest : Document) :
    compactFrom last (run.absorb next :: rest) = compactFrom last (run :: next :: rest) := by
  have hgrown := Run.isEmpty_absorb h next
  cases halike : last.style.alike run.style with
  | true =>
      have hjoined : last.style.alike (run.absorb next).style = true := by
        rw [Run.absorb_style, halike]
      have hlater : (last.absorb run).style.alike next.style = true := by
        rw [Run.absorb_style, Style.alike_congr halike, hsame]
      rw [compactFrom_cons_of_alike hgrown hjoined, compactFrom_cons_of_alike h halike,
        compactFrom_cons_of_alike hnext hlater, Run.absorb_assoc (Style.literal_of_alike halike)]
  | false =>
      have hjoined : last.style.alike (run.absorb next).style = false := by
        rw [Run.absorb_style, halike]
      rw [compactFrom_cons_of_distinct hgrown hjoined, compactFrom_cons_of_distinct h halike,
        compactFrom_cons_of_alike hnext hsame]

/-- What some runs have become goes the way of these runs. -/
theorem compactFrom_compactFrom_append {run : Run} (h : run.isEmpty = false) (last : Run)
    (rest later : Document) :
    compactFrom last (compactFrom run rest ++ later) = compactFrom last (run :: (rest ++ later)) := by
  induction rest generalizing last run with
  | nil => rfl
  | cons next rest ih =>
      rw [List.cons_append]
      cases hnext : next.isEmpty with
      | true => rw [compactFrom_cons_of_empty hnext, ih h, compactFrom_cons_cons_of_empty hnext]
      | false =>
          cases hsame : run.style.alike next.style with
          | true =>
              rw [compactFrom_cons_of_alike hnext hsame, ih (Run.isEmpty_absorb h next),
                compactFrom_cons_absorb h hnext hsame]
          | false =>
              rw [compactFrom_cons_of_distinct hnext hsame, List.cons_append]
              cases halike : last.style.alike run.style with
              | true =>
                  rw [compactFrom_cons_of_alike h halike, compactFrom_cons_of_alike h halike,
                    ih hnext]
              | false =>
                  rw [compactFrom_cons_of_distinct h halike, compactFrom_cons_of_distinct h halike,
                    ih hnext]

theorem compactFrom_compact (last : Run) (document : Document) :
    compactFrom last document.compact = compactFrom last document := by
  induction document with
  | nil => rfl
  | cons run rest ih =>
      cases hrun : run.isEmpty with
      | true => rw [compact_cons_of_empty hrun, ih, compactFrom_cons_of_empty hrun]
      | false =>
          have hkept := compactFrom_compactFrom_append hrun last rest []
          rwa [List.append_nil, List.append_nil, ← compact_cons_of_filled hrun] at hkept

theorem compactFrom_append_compact (last : Run) (a b : Document) :
    compactFrom last (a ++ b.compact) = compactFrom last (a ++ b) := by
  induction a generalizing last with
  | nil => exact compactFrom_compact last b
  | cons run rest ih => simp only [List.cons_append, compactFrom, ih]

/-- The second piece may be made compact beforehand. -/
theorem compact_append_compact (a b : Document) : compact (a ++ b.compact) = compact (a ++ b) := by
  induction a with
  | nil => exact compact_eq_self (isCompact_compact b)
  | cons run rest ih =>
      simp only [List.cons_append, compact, ih, compactFrom_append_compact]

/-- What the first runs have become goes the way of these runs. -/
theorem compact_compactFrom_append {run : Run} (h : run.isEmpty = false) (rest later : Document) :
    compact (compactFrom run rest ++ later) = compactFrom run (rest ++ later) := by
  induction rest generalizing run with
  | nil => exact compact_cons_of_filled h later
  | cons next rest ih =>
      rw [List.cons_append]
      cases hnext : next.isEmpty with
      | true => rw [compactFrom_cons_of_empty hnext, ih h, compactFrom_cons_of_empty hnext]
      | false =>
          cases hsame : run.style.alike next.style with
          | true =>
              rw [compactFrom_cons_of_alike hnext hsame, ih (Run.isEmpty_absorb h next),
                compactFrom_cons_of_alike hnext hsame]
          | false =>
              rw [compactFrom_cons_of_distinct hnext hsame, List.cons_append,
                compact_cons_of_filled h, compactFrom_compactFrom_append hnext]

/-- The first piece may be made compact beforehand. -/
theorem compact_compact_append (a b : Document) : compact (a.compact ++ b) = compact (a ++ b) := by
  induction a with
  | nil => rfl
  | cons run rest ih =>
      rw [List.cons_append]
      cases hrun : run.isEmpty with
      | true => rw [compact_cons_of_empty hrun, ih, compact_cons_of_empty hrun]
      | false =>
          rw [compact_cons_of_filled hrun, compact_compactFrom_append hrun,
            compact_cons_of_filled hrun]

/-- Compaction of two pieces, and of what they make together, is compaction of the whole. A
second pass over one piece changes nothing. -/
theorem compact_append (a b : Document) :
    compact (a ++ b) = compact (a.compact ++ b.compact) ∧ a.compact.compact = a.compact := by
  constructor
  · rw [compact_compact_append, compact_append_compact]
  · exact compact_eq_self (isCompact_compact a)

/-- The pieces meet inside a literal group. The second entry of a run is given up when another
run takes that one in, be it alone or with what it has taken in before. -/
example :
    let first : Run := ⟨{ literal := true, emphasis := true }, ["a"]⟩
    let second : Run := ⟨{ literal := true }, ["b", "x"]⟩
    let third : Run := ⟨{ literal := true }, ["c"]⟩
    compact [second, third] = [⟨{ literal := true }, ["bc", "x"]⟩] ∧
      compact [first, second, third] = [⟨{ literal := true, emphasis := true }, ["abc"]⟩] ∧
      compact ([first] ++ compact [second, third]) = compact [first, second, third] := by
  decide

end Document

end StyledMarkup
