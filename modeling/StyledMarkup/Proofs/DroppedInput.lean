import StyledMarkup.Conversion
import StyledMarkup.Proofs.LongestMatch

/-!
# Dropped input

Whether the input is cut at a `<` is decided by what stands behind it, however far: one more
`>` can make a tag of everything that is dropped. This is all that dropped input decides. What
was read before the cut is read in the same way if the input ends there, or if it goes on
otherwise and is cut at the same byte. So such inputs convert alike, up to the report of the
cut, or fail alike.
-/
namespace StyledMarkup

namespace Token

theorem attach_ofBody (body : List Char) (tokens : List Token) :
    attach (ofBody body) tokens = ofBody body :: tokens := by
  unfold ofBody
  split <;> rfl

/-- Reading never leaves two texts side by side, nor an empty one. -/
theorem fuse_scan (offset : Nat) (input : List Char) :
    fuse (scan offset input).tokens = (scan offset input).tokens := by
  fun_induction scan offset input with
  | case1 => rfl
  | case2 offset c cs hc text ih =>
      have hne : String.ofList text ≠ "" := by simp [text]
      have hhead : (cs.dropWhile isText).head?.all (fun d => !isText d) = true := by
        have hstop := List.head?_dropWhile_not isText cs
        cases hrest : (cs.dropWhile isText).head? <;> simp_all
      rw [TokenStream.cons, fuse_cons, ih, attach_scan_tag _ hne hhead]
  | case3 => rfl
  | case4 offset c cs hc body rest hsplit ih => rw [TokenStream.cons, fuse_cons, ih, attach_ofBody]

/-- The tokens of markup are those of what was read of it, and this is not cut. -/
theorem tokenize_renderAll_tokenize (markup : String) :
    tokenize (renderAll (tokenize markup).tokens) = ⟨(tokenize markup).tokens, none⟩ := by
  rw [tokenize_renderAll (legible_tokenize markup), tokenize, fuse_scan]

/-- Markup is what was read of it and what was dropped. -/
theorem exists_dropped (markup : String) :
    ∃ dropped, markup = renderAll (tokenize markup).tokens ++ dropped ∧
      (tokenize markup).extent markup =
        (renderAll (tokenize markup).tokens).utf8ByteSize := by
  obtain ⟨dropped, hlexes, haccounts⟩ := lexes_scan 0 markup.toList
  rw [← tokenize] at hlexes haccounts
  rw [Nat.zero_add, utf8Length_eq, String.ofList_toList] at haccounts
  have hmarkup : markup = renderAll (tokenize markup).tokens ++ String.ofList dropped := by
    rw [← String.toList_inj]
    simpa using hlexes.eq_append
  refine ⟨String.ofList dropped, hmarkup, ?_⟩
  unfold TokenStream.Accounts at haccounts
  unfold TokenStream.extent
  cases htruncation : (tokenize markup).truncation with
  | none =>
      simp only [htruncation] at haccounts ⊢
      rw [haccounts, String.ofList_nil, String.append_empty] at hmarkup
      exact congrArg String.utf8ByteSize hmarkup
  | some truncation =>
      simp only [htruncation] at haccounts ⊢
      exact haccounts.1

/-- What was read of the markup are its bytes up to the cut. -/
theorem toByteArray_renderAll_tokenize (markup : String) :
    (renderAll (tokenize markup).tokens).toByteArray =
      markup.toByteArray.extract 0 ((tokenize markup).extent markup) := by
  obtain ⟨dropped, hmarkup, hextent⟩ := exists_dropped markup
  have hbytes := congrArg String.toByteArray hmarkup
  rw [String.toByteArray_append] at hbytes
  rw [hbytes, ByteArray.extract_append_eq_left hextent]

/-- Markups that agree up to the place where both are cut have the same tokens. -/
theorem tokens_eq_of_agree {markup other : String}
    (hextent : (tokenize other).extent other = (tokenize markup).extent markup)
    (hbytes : other.toByteArray.extract 0 ((tokenize markup).extent markup) =
      markup.toByteArray.extract 0 ((tokenize markup).extent markup)) :
    (tokenize other).tokens = (tokenize markup).tokens := by
  rw [← toByteArray_renderAll_tokenize, ← hextent, ← toByteArray_renderAll_tokenize,
    String.toByteArray_inj] at hbytes
  have htokens := congrArg tokenize hbytes
  rw [tokenize_renderAll_tokenize, tokenize_renderAll_tokenize] at htokens
  exact (TokenStream.mk.inj htokens).1

end Token

/-- All input with the same tokens fails alike or converts alike, up to the report of a cut. -/
theorem convert_of_tokens (tokens : List Token) :
    (∃ unknown, ∀ input, (tokenize input).tokens = tokens → convert input = .error unknown) ∨
      ∃ document written, ∀ input, (tokenize input).tokens = tokens →
        convert input = .ok ⟨document, written, (tokenize input).truncation⟩ := by
  cases hread : Document.ofTokens tokens with
  | error unknown =>
      refine .inl ⟨unknown, fun input hinput => ?_⟩
      rw [convert, readMarkup, hinput, hread]
      rfl
  | ok runs =>
      refine .inr ⟨runs.compact, runs.compact.markup, fun input hinput => ?_⟩
      rw [convert, readMarkup, hinput, hread]
      rfl

/-- If input is cut, what stands before the cut has the same tokens and is not cut. It fails
to convert with the same error as the input and as all input that agrees with it up to the
cut and is cut there; or they convert to the same document and the same markup. -/
theorem convert_of_truncated {markup : String} {truncation : Truncation}
    (h : (tokenize markup).truncation = some truncation) :
    ∃ kept : String,
      kept.toByteArray = markup.toByteArray.extract 0 truncation.offset ∧
      tokenize kept = ⟨(tokenize markup).tokens, none⟩ ∧
      ∀ (other : String) (cut : Truncation), (tokenize other).truncation = some cut →
        cut.offset = truncation.offset →
        other.toByteArray.extract 0 truncation.offset =
          markup.toByteArray.extract 0 truncation.offset →
        (∃ unknown, convert kept = .error unknown ∧ convert markup = .error unknown ∧
            convert other = .error unknown) ∨
          ∃ document written, convert kept = .ok ⟨document, written, none⟩ ∧
            convert markup = .ok ⟨document, written, some truncation⟩ ∧
            convert other = .ok ⟨document, written, some cut⟩ := by
  have hextent : (tokenize markup).extent markup = truncation.offset := by
    simp only [TokenStream.extent, h]
  have hkept := Token.tokenize_renderAll_tokenize markup
  refine ⟨Token.renderAll (tokenize markup).tokens, ?_, hkept, ?_⟩
  · rw [Token.toByteArray_renderAll_tokenize, hextent]
  · intro other cut hcut hoffset hbytes
    have hother : (tokenize other).extent other = (tokenize markup).extent markup := by
      simp only [TokenStream.extent, hcut, h, hoffset]
    rw [← hextent] at hbytes
    have htokens := Token.tokens_eq_of_agree hother hbytes
    have hwhole := congrArg TokenStream.tokens hkept
    rcases convert_of_tokens (tokenize markup).tokens with
      ⟨unknown, hfails⟩ | ⟨document, written, hconverts⟩
    · exact .inl ⟨unknown, hfails _ hwhole, hfails _ rfl, hfails _ htokens⟩
    · refine .inr ⟨document, written, ?_, ?_, ?_⟩
      · rw [hconverts _ hwhole, hkept]
      · rw [hconverts _ rfl, h]
      · rw [hconverts _ htokens, hcut]

/-- Markup that is cut at an empty tag, behind a character of two bytes. -/
def severedMarkup : String := "<B>ä</B> b<>c</B>"

/-- The same up to the cut, which is now made because no tag ends any more. -/
def frayedMarkup : String := "<B>ä</B> b<TT ä"

theorem convert_severedMarkup_frayedMarkup :
    (tokenize severedMarkup).truncation = some ⟨11, .emptyTag⟩ ∧
      (tokenize frayedMarkup).truncation = some ⟨11, .unterminatedTag⟩ ∧
      frayedMarkup.toByteArray.extract 0 11 = severedMarkup.toByteArray.extract 0 11 ∧
      ∃ kept : String, kept.toByteArray = severedMarkup.toByteArray.extract 0 11 ∧
        tokenize kept = ⟨(tokenize severedMarkup).tokens, none⟩ ∧
        ∃ document written, convert kept = .ok ⟨document, written, none⟩ ∧
          convert severedMarkup = .ok ⟨document, written, some ⟨11, .emptyTag⟩⟩ ∧
          convert frayedMarkup = .ok ⟨document, written, some ⟨11, .unterminatedTag⟩⟩ := by
  have hsevered : (tokenize severedMarkup).truncation = some ⟨11, .emptyTag⟩ := by
    decide +kernel
  have hfrayed : (tokenize frayedMarkup).truncation = some ⟨11, .unterminatedTag⟩ := by
    decide +kernel
  have hbytes : frayedMarkup.toByteArray.extract 0 11 =
      severedMarkup.toByteArray.extract 0 11 := by decide +kernel
  obtain ⟨kept, hkept, htokens, hother⟩ := convert_of_truncated hsevered
  refine ⟨hsevered, hfrayed, hbytes, kept, hkept, htokens, ?_⟩
  rcases hother frayedMarkup _ hfrayed rfl hbytes with ⟨unknown, -, hfails, -⟩ | hconverts
  · have hsucceeds : (convert severedMarkup).isOk = true := by decide +kernel
    rw [hfails] at hsucceeds
    cases hsucceeds
  · exact hconverts

end StyledMarkup
