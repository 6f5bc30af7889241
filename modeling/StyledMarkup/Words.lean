/-!
# Words

Words are what is left of a text when every stretch of separators is one cut
and nothing empty is kept, at either end or in between. The separators are the
caller's: tag contents know the space alone, running text knows five white
space characters of ASCII. Other white space of Unicode stays inside a word.
-/
namespace StyledMarkup.Words

/-- The stretches between separators, without the empty ones. -/
def split (separator : Char → Bool) (text : String) : List String :=
  ((text.toList.splitOnP separator).filter fun word => !word.isEmpty).map String.ofList

@[simp] theorem split_empty (separator : Char → Bool) : split separator "" = [] := by
  simp [split]

/-- A separator cuts whatever stands around it. -/
theorem split_append_separator (separator : Char → Bool) (a b : String) {c : Char}
    (hc : separator c = true) :
    split separator (a ++ String.singleton c ++ b) =
      split separator a ++ split separator b := by
  simp [split, List.splitOnP_append_cons _ _ hc]

/-- A text without separators is one word, unless it is empty. -/
theorem split_eq_singleton {separator : Char → Bool} {text : String} (hne : text ≠ "")
    (h : ∀ c ∈ text.toList, separator c = false) : split separator text = [text] := by
  have : text.toList ≠ [] := by simpa using hne
  simp [split, List.splitOnP_eq_singleton h, this]

end StyledMarkup.Words
