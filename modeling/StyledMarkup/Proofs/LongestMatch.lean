import Mathlib.Data.List.Chain
import StyledMarkup.Proofs.TokenFusion

/-!
# Tokens as the longest matches

Markup has two classes of lexemes: a stretch of characters other than `<`, and a body
without `>` in brackets. Reading takes the longest lexeme at the place where it stands, and
stops where there is none. So the tokens hold all of the input up to that place: written
one behind the other they are the input again, and what is left over shows why it was
dropped.

The other way round, not every list of tokens comes back from the text that it is written
as. It does if the tokens could have been read there: texts that are not empty, hold no
`<` and are kept apart by tags, and tags whose names end at their own bracket and say
whether they open or close.
-/
namespace StyledMarkup

/-- What a cut for this cause leaves behind. -/
def TruncationCause.Explains : TruncationCause → List Char → Prop
  | emptyTag, dropped => ['<', '>'] <+: dropped
  | unterminatedTag, dropped => dropped.head? = some '<' ∧ '>' ∉ dropped

namespace TokenStream

/-- The bytes of the markup that were read: those before the cut, or all. -/
def extent (stream : TokenStream) (markup : String) : Nat :=
  match stream.truncation with
  | none => markup.utf8ByteSize
  | some truncation => truncation.offset

/-- Nothing is dropped without a truncation, and a truncation says where and why. -/
def Accounts (stream : TokenStream) (start : Nat) (dropped : List Char) : Prop :=
  match stream.truncation with
  | none => dropped = []
  | some truncation => truncation.offset = start ∧ truncation.cause.Explains dropped

theorem Accounts.cons {stream : TokenStream} {offset length : Nat} {token : Token}
    (hlength : Token.utf8Length token.render.toList = length) {dropped : List Char}
    (h : stream.Accounts
      (offset + length + Token.utf8Length (Token.renderAll stream.tokens).toList) dropped) :
    (stream.cons token).Accounts
      (offset + Token.utf8Length (Token.renderAll (stream.cons token).tokens).toList) dropped := by
  rw [TokenStream.cons, Token.renderAll_cons, String.toList_append, Token.utf8Length_append,
    hlength, ← Nat.add_assoc]
  exact h

end TokenStream

namespace Token

/-- The stretches of markup that are one token, and the token that each is. -/
inductive IsLexeme : List Char → Token → Prop
  | text {written : List Char} : written ≠ [] → (∀ c ∈ written, isText c = true) →
      IsLexeme written (.text (String.ofList written))
  | tag {body : List Char} : body ≠ [] → (∀ c ∈ body, isBody c = true) →
      IsLexeme ('<' :: (body ++ ['>'])) (ofBody body)

/-- No lexeme stands at the beginning of the input. -/
def IsStuck (input : List Char) : Prop :=
  ∀ lexeme token, IsLexeme lexeme token → ¬ lexeme <+: input

/-- No lexeme at the beginning of the input is longer. -/
def IsLongest (lexeme input : List Char) : Prop :=
  ∀ other token, IsLexeme other token → other <+: input → other.length ≤ lexeme.length

/-- Taking the longest lexeme as often as there is one gives the tokens and leaves the rest. -/
inductive Lexes : List Char → List Token → List Char → Prop
  | stop {input : List Char} : IsStuck input → Lexes input [] input
  | next {lexeme rest dropped : List Char} {token : Token} {tokens : List Token} :
      IsLexeme lexeme token → IsLongest lexeme (lexeme ++ rest) → Lexes rest tokens dropped →
      Lexes (lexeme ++ rest) (token :: tokens) dropped

theorem IsLexeme.render {lexeme : List Char} {token : Token} (h : IsLexeme lexeme token) :
    token.render.toList = lexeme := by
  cases h with
  | text hne htext => simp [Token.render]
  | tag hne hbody => simp [render_ofBody]

theorem IsLexeme.ne_nil {lexeme : List Char} {token : Token} (h : IsLexeme lexeme token) :
    lexeme ≠ [] := by
  cases h with
  | text hne htext => exact hne
  | tag hne hbody => exact List.cons_ne_nil _ _

theorem legible_ofBody {body : List Char} (hne : body ≠ [])
    (h : ∀ c ∈ body, isBody c = true) : (ofBody body).Legible := by
  unfold ofBody
  split
  · intro c hc
    exact h c (List.mem_cons_of_mem _ (by simpa using hc))
  · rename_i hslash
    refine ⟨by simpa using hne, fun hhead => ?_, fun c hc => h c (by simpa using hc)⟩
    obtain ⟨name, hname⟩ := List.head?_eq_some_iff.1 hhead
    exact hslash name (by simpa using hname)

theorem IsLexeme.legible {lexeme : List Char} {token : Token} (h : IsLexeme lexeme token) :
    token.Legible := by
  cases h with
  | text hne htext => simpa [Legible] using htext
  | tag hne hbody => exact legible_ofBody hne hbody

/-- What begins with a character of text is text. -/
theorem IsLexeme.isText_of_head {lexeme : List Char} {token : Token} (h : IsLexeme lexeme token)
    {c : Char} (hc : isText c = true) {cs : List Char} (hbegin : lexeme <+: c :: cs) :
    (∀ d ∈ lexeme, isText d = true) ∧ token = .text (String.ofList lexeme) := by
  cases h with
  | text hne htext => exact ⟨htext, rfl⟩
  | tag hne hbody =>
      obtain ⟨rfl, -⟩ := List.cons_prefix_cons.1 hbegin
      exact absurd hc (by decide)

/-- What begins with a bracket is a tag. -/
theorem IsLexeme.exists_body_of_bracket {lexeme : List Char} {token : Token}
    (h : IsLexeme lexeme token) {cs : List Char} (hbegin : lexeme <+: '<' :: cs) :
    ∃ body rest, body ≠ [] ∧ (∀ d ∈ body, isBody d = true) ∧
      lexeme = '<' :: (body ++ ['>']) ∧ token = ofBody body ∧ cs = body ++ '>' :: rest := by
  cases h with
  | text hne htext =>
      obtain ⟨first, others, rfl⟩ := List.exists_cons_of_ne_nil hne
      obtain ⟨rfl, -⟩ := List.cons_prefix_cons.1 hbegin
      exact absurd (htext _ List.mem_cons_self) (by decide)
  | tag hne hbody =>
      rename_i body
      obtain ⟨rest, hinput⟩ := hbegin
      exact ⟨body, rest, hne, hbody, rfl, rfl, by simpa using hinput.symm⟩

/-- A lexeme is one token and no other. -/
theorem IsLexeme.unique {lexeme : List Char} {token other : Token} (h : IsLexeme lexeme token)
    (hother : IsLexeme lexeme other) : token = other := by
  obtain ⟨c, cs, rfl⟩ := List.exists_cons_of_ne_nil h.ne_nil
  by_cases hc : isText c = true
  · rw [(h.isText_of_head hc (List.prefix_refl _)).2,
      (hother.isText_of_head hc (List.prefix_refl _)).2]
  · obtain rfl : c = '<' := by simpa [isText] using hc
    obtain ⟨body, rest, -, -, hlexeme, rfl, -⟩ := h.exists_body_of_bracket (List.prefix_refl _)
    obtain ⟨found, -, -, -, hfound, rfl, -⟩ := hother.exists_body_of_bracket (List.prefix_refl _)
    rw [hlexeme] at hfound
    rw [List.append_cancel_right (List.cons.inj hfound).2]

theorem isStuck_nil : IsStuck [] := by
  intro lexeme token h hbegin
  exact h.ne_nil (List.prefix_nil.1 hbegin)

theorem isStuck_of_explains {cause : TruncationCause} {dropped : List Char}
    (h : cause.Explains dropped) : IsStuck dropped := by
  intro lexeme token hlexeme hbegin
  cases cause with
  | emptyTag =>
      obtain ⟨behind, rfl⟩ := h
      obtain ⟨body, rest, hne, hbody, -, -, htail⟩ := hlexeme.exists_body_of_bracket hbegin
      obtain ⟨first, others, rfl⟩ := List.exists_cons_of_ne_nil hne
      obtain ⟨rfl, -⟩ := List.cons.inj htail
      exact absurd (hbody _ List.mem_cons_self) (by decide)
  | unterminatedTag =>
      obtain ⟨hhead, hclose⟩ := h
      obtain ⟨cs, rfl⟩ := List.head?_eq_some_iff.1 hhead
      obtain ⟨body, rest, -, -, -, -, rfl⟩ := hlexeme.exists_body_of_bracket hbegin
      simp at hclose

/-- All the text there is makes the longest lexeme at a character of text. -/
theorem isLongest_text {c : Char} (hc : isText c = true) (cs : List Char) :
    IsLongest (c :: cs.takeWhile isText) (c :: cs) := by
  intro other token h hbegin
  have htext := (h.isText_of_head hc hbegin).1
  obtain ⟨rest, hinput⟩ := hbegin
  rw [← List.takeWhile_cons_of_pos hc, ← hinput, List.takeWhile_append_of_pos htext]
  simp

/-- The first `>` behind the body ends the only lexeme at a tag. -/
theorem isLongest_tag {body : List Char} (hbody : ∀ c ∈ body, isBody c = true)
    (rest : List Char) : IsLongest ('<' :: (body ++ ['>'])) ('<' :: (body ++ '>' :: rest)) := by
  intro other token h hbegin
  obtain ⟨found, behind, -, hfound, rfl, -, htail⟩ := h.exists_body_of_bracket hbegin
  have hclose : isBody '>' = false := by decide
  have htake := congrArg (List.takeWhile isBody) htail
  rw [List.takeWhile_append_of_pos hbody, List.takeWhile_append_of_pos hfound] at htake
  simp only [List.takeWhile_cons, hclose, Bool.false_eq_true, if_false, List.append_nil] at htake
  exact Nat.le_of_eq (by rw [htake])

theorem Lexes.eq_append {input dropped : List Char} {tokens : List Token}
    (h : Lexes input tokens dropped) : input = (renderAll tokens).toList ++ dropped := by
  induction h with
  | stop _ => rfl
  | next hlexeme _ _ ih => rw [renderAll_cons, String.toList_append, hlexeme.render, ih]; simp

theorem Lexes.legible {input dropped : List Char} {tokens : List Token}
    (h : Lexes input tokens dropped) : ∀ token ∈ tokens, token.Legible := by
  induction h with
  | stop _ => simp
  | next hlexeme _ _ ih => exact List.forall_mem_cons.2 ⟨hlexeme.legible, ih⟩

/-- The longest lexemes leave no choice. -/
theorem Lexes.unique {input dropped rest : List Char} {tokens others : List Token}
    (h : Lexes input tokens dropped) (hother : Lexes input others rest) :
    tokens = others ∧ dropped = rest := by
  induction h generalizing others rest with
  | stop hstuck =>
      cases hother with
      | stop _ => exact ⟨rfl, rfl⟩
      | next hlexeme _ _ => exact absurd (List.prefix_append _ _) (hstuck _ _ hlexeme)
  | next hlexeme hlongest hrest ih =>
      rename_i lexeme later _ token tokens
      generalize hinput : lexeme ++ later = input at hother hlongest
      cases hother with
      | stop hstuck => exact absurd (hinput ▸ List.prefix_append _ _) (hstuck _ _ hlexeme)
      | next hlexeme' hlongest' hrest' =>
          rename_i lexeme' later' token' others
          have hlength : lexeme.length = lexeme'.length := Nat.le_antisymm
            (hlongest' _ _ hlexeme (hinput ▸ List.prefix_append _ _))
            (hlongest _ _ hlexeme' (List.prefix_append _ _))
          obtain ⟨rfl, rfl⟩ := List.append_inj hinput hlength
          obtain ⟨rfl, rfl⟩ := ih hrest'
          exact ⟨by rw [hlexeme.unique hlexeme'], rfl⟩

/-- A `<` that begins no tag is dropped with a cause that explains it. -/
theorem explains_of_splitTag {cs : List Char} {cause : TruncationCause}
    (h : splitTag cs = .error cause) : cause.Explains ('<' :: cs) := by
  have hsplit := List.takeWhile_append_dropWhile (p := isBody) (l := cs)
  unfold splitTag at h
  split at h
  · rename_i hdrop
    cases h
    refine ⟨rfl, fun hmem => ?_⟩
    have hclose : '>' ∈ cs.takeWhile isBody := by
      rw [hdrop, List.append_nil] at hsplit
      rw [hsplit]
      simpa using hmem
    exact absurd (List.all_eq_true.1 List.all_takeWhile _ hclose) (by decide)
  · rename_i c rest hdrop
    simp only at h
    split at h
    · rename_i hbody
      cases h
      rw [hbody, hdrop, eq_bracket_of_dropWhile hdrop] at hsplit
      exact ⟨rest, by rw [← hsplit]; rfl⟩
    · simp at h

theorem body_of_splitTag {cs body rest : List Char} (h : splitTag cs = .ok (body, rest)) :
    body ≠ [] ∧ ∀ c ∈ body, isBody c = true := by
  unfold splitTag at h
  split at h
  · simp at h
  · simp only at h
    split at h
    · simp at h
    · rename_i hne
      simp only [Except.ok.injEq, Prod.mk.injEq] at h
      rw [← h.1]
      exact ⟨hne, fun c hc => List.all_eq_true.1 List.all_takeWhile c hc⟩

theorem utf8Length_tag (body : List Char) :
    utf8Length ('<' :: (body ++ ['>'])) = utf8Length body + 2 := by
  have hopen : '<'.utf8Size = 1 := by decide
  have hclose : '>'.utf8Size = 1 := by decide
  simp only [utf8Length, utf8Length_append, hopen, hclose]
  omega

theorem utf8Length_eq (cs : List Char) : utf8Length cs = (String.ofList cs).utf8ByteSize := by
  induction cs with
  | nil => rfl
  | cons c cs ih =>
      have hcons : String.ofList (c :: cs) = String.singleton c ++ String.ofList cs := by
        rw [String.singleton_eq_ofList, ← String.ofList_append, List.singleton_append]
      rw [utf8Length, ih, hcons, String.utf8ByteSize_append, String.utf8ByteSize_singleton]

/-- Reading takes the longest lexemes, and accounts for what it drops. -/
theorem lexes_scan (offset : Nat) (input : List Char) :
    ∃ dropped, Lexes input (scan offset input).tokens dropped ∧
      (scan offset input).Accounts
        (offset + utf8Length (renderAll (scan offset input).tokens).toList) dropped := by
  fun_induction scan offset input with
  | case1 => exact ⟨[], .stop isStuck_nil, rfl⟩
  | case2 offset c cs hc text ih =>
      obtain ⟨dropped, hlexes, haccounts⟩ := ih
      have hlexeme : IsLexeme text (.text (String.ofList text)) := by
        refine .text (List.cons_ne_nil _ _) (List.forall_mem_cons.2 ⟨hc, fun d hd => ?_⟩)
        exact List.all_eq_true.1 List.all_takeWhile d hd
      have hinput : c :: cs = text ++ cs.dropWhile isText := by simp [text]
      have hlongest := isLongest_text hc cs
      rw [hinput] at hlongest ⊢
      refine ⟨dropped, .next hlexeme hlongest hlexes, haccounts.cons ?_⟩
      rw [hlexeme.render]
  | case3 offset c cs hc cause hsplit =>
      obtain rfl : c = '<' := by simpa [isText] using hc
      have hexplains := explains_of_splitTag hsplit
      exact ⟨_, .stop (isStuck_of_explains hexplains), rfl, hexplains⟩
  | case4 offset c cs hc body rest hsplit ih =>
      obtain rfl : c = '<' := by simpa [isText] using hc
      obtain ⟨dropped, hlexes, haccounts⟩ := ih
      obtain ⟨hne, hbody⟩ := body_of_splitTag hsplit
      have hlexeme := IsLexeme.tag hne hbody
      have hinput : '<' :: (body ++ '>' :: rest) = ('<' :: (body ++ ['>'])) ++ rest := by simp
      have hlongest := isLongest_tag hbody rest
      rw [splitTag_eq hsplit]
      rw [hinput] at hlongest ⊢
      rw [Nat.add_assoc offset] at haccounts
      refine ⟨dropped, .next hlexeme hlongest hlexes, haccounts.cons ?_⟩
      rw [hlexeme.render, utf8Length_tag]

theorem legible_tokenize (markup : String) :
    ∀ token ∈ (tokenize markup).tokens, token.Legible := by
  obtain ⟨dropped, hlexes, -⟩ := lexes_scan 0 markup.toList
  exact hlexes.legible

/-- The tokens of markup, written one behind the other, are its bytes up to the cut, or all
of it. They are the longest lexemes, and what a cut leaves behind begins with `<>`, or with
a `<` that no `>` follows. -/
theorem renderAll_tokenize (markup : String) :
    ∃ dropped : String,
      (∀ tokens rest, Lexes markup.toList tokens rest ↔
        tokens = (tokenize markup).tokens ∧ rest = dropped.toList) ∧
      markup = renderAll (tokenize markup).tokens ++ dropped ∧
      (renderAll (tokenize markup).tokens).utf8ByteSize = (tokenize markup).extent markup ∧
      ∀ truncation ∈ (tokenize markup).truncation,
        truncation.cause.Explains dropped.toList := by
  obtain ⟨dropped, hlexes, haccounts⟩ := lexes_scan 0 markup.toList
  rw [← tokenize] at hlexes haccounts
  have hmarkup : markup = renderAll (tokenize markup).tokens ++ String.ofList dropped := by
    rw [← String.toList_inj]
    simpa using hlexes.eq_append
  rw [Nat.zero_add, utf8Length_eq, String.ofList_toList] at haccounts
  refine ⟨String.ofList dropped, fun tokens rest => ?_, hmarkup, ?_⟩
  · rw [String.toList_ofList]
    constructor
    · intro h
      exact h.unique hlexes
    · rintro ⟨rfl, rfl⟩
      exact hlexes
  · unfold TokenStream.Accounts at haccounts
    unfold TokenStream.extent
    cases htruncation : (tokenize markup).truncation with
    | none =>
        simp only [htruncation] at haccounts ⊢
        subst haccounts
        have hall : renderAll (tokenize markup).tokens = markup := by simpa using hmarkup.symm
        exact ⟨by rw [hall], by simp⟩
    | some truncation =>
        simp only [htruncation] at haccounts ⊢
        exact ⟨haccounts.1.symm, by simpa using haccounts.2⟩

/-- A `<` inside a tag belongs to it, and a later `>` is text. The cut is counted in bytes. -/
example : tokenize "ä<B<>>é<>x" =
    ⟨[.text "ä", .opening "B<", .text ">é"], some ⟨9, .emptyTag⟩⟩ := by decide +kernel

/-- Not both are texts. -/
def Apart : Token → Token → Prop
  | text _, text _ => False
  | _, _ => True

/-- Tokens as they can be read one behind the other. -/
structure IsShaped (tokens : List Token) : Prop where
  legible : ∀ token ∈ tokens, token.Legible
  filled : text "" ∉ tokens
  apart : tokens.IsChain Apart

theorem length_fuse_le (tokens : List Token) : (fuse tokens).length ≤ tokens.length := by
  induction tokens with
  | nil => exact Nat.le_refl 0
  | cons token tokens ih =>
      rw [fuse_cons]
      rcases token.attach_cases (fuse tokens) with heq | ⟨-, heq⟩ | ⟨a, b, rest, -, hfuse, heq⟩
      · simpa [heq] using ih
      · rw [heq]
        exact Nat.le_succ_of_le ih
      · rw [hfuse] at ih
        rw [heq]
        exact Nat.le_succ_of_le ih

theorem attach_eq_cons_iff {token : Token} {tokens : List Token} :
    attach token tokens = token :: tokens ↔
      token ≠ text "" ∧ ∀ next ∈ tokens.head?, Apart token next := by
  cases token with
  | opening name => simp [Apart]
  | closing name => simp [Apart]
  | text a =>
      cases tokens with
      | nil => by_cases ha : a = "" <;> simp [attach, ha]
      | cons next rest => cases next <;> by_cases ha : a = "" <;> simp [attach, ha, Apart]

/-- A token in front stays as it is only if the rest does, which cannot get any longer. -/
theorem fuse_cons_eq_self_iff {token : Token} {tokens : List Token} :
    fuse (token :: tokens) = token :: tokens ↔
      fuse tokens = tokens ∧ attach token tokens = token :: tokens := by
  rw [fuse_cons]
  constructor
  · intro h
    have hfuse : fuse tokens = tokens := by
      have hle := length_fuse_le tokens
      rcases token.attach_cases (fuse tokens) with heq | ⟨-, heq⟩ | ⟨a, b, rest, -, hrest, heq⟩
      · exact (List.cons.inj (heq.symm.trans h)).2
      · rw [heq] at h
        rw [h, List.length_cons] at hle
        omega
      · rw [heq] at h
        have hlength := congrArg List.length h
        simp only [hrest, List.length_cons] at hle hlength
        omega
    rw [hfuse] at h
    exact ⟨hfuse, h⟩
  · rintro ⟨hfuse, hattach⟩
    rw [hfuse, hattach]

/-- Fusing leaves alone what has no empty texts and no neighbouring ones, and nothing else. -/
theorem fuse_eq_self_iff {tokens : List Token} :
    fuse tokens = tokens ↔ text "" ∉ tokens ∧ tokens.IsChain Apart := by
  induction tokens with
  | nil => simp
  | cons token tokens ih =>
      rw [fuse_cons_eq_self_iff, ih, attach_eq_cons_iff, List.isChain_cons, List.mem_cons, not_or]
      constructor
      · rintro ⟨⟨hmem, hchain⟩, hne, hhead⟩
        exact ⟨⟨hne.symm, hmem⟩, hhead, hchain⟩
      · rintro ⟨⟨hne, hmem⟩, hhead, hchain⟩
        exact ⟨⟨hmem, hchain⟩, Ne.symm hne, hhead⟩

/-- Reading gives back the tokens that were written, all of them and nothing else, if and
only if they are shaped as tokens that were read. -/
theorem tokenize_renderAll_eq_iff (tokens : List Token) :
    tokenize (renderAll tokens) = ⟨tokens, none⟩ ↔ IsShaped tokens := by
  constructor
  · intro h
    have hlegible := legible_tokenize (renderAll tokens)
    have hread := congrArg TokenStream.tokens h
    rw [hread] at hlegible
    have hfuse : fuse tokens = tokens := by rwa [tokenize_renderAll hlegible] at hread
    obtain ⟨hfilled, hapart⟩ := fuse_eq_self_iff.1 hfuse
    exact ⟨hlegible, hfilled, hapart⟩
  · intro h
    rw [tokenize_renderAll h.legible, fuse_eq_self_iff.2 ⟨h.filled, h.apart⟩]

/-- A name may hold `<`, white space and slashes, and a closing tag need not have one. -/
example : tokenize (renderAll [.opening "a< /b", .closing "", .text "/>", .closing "/"]) =
    ⟨[.opening "a< /b", .closing "", .text "/>", .closing "/"], none⟩ := by decide +kernel

end Token

end StyledMarkup
