import StyledMarkup.MarkupToken

/-!
# Texts that meet

Nothing in markup separates two texts that are written one behind the other, and
nothing shows an empty one. A list of tokens that is written as markup is
therefore read back fused: neighbouring texts have become one, empty texts are
gone, and every tag is as it was. This holds as long as no text has a `<` and
each tag is written in a way that its name can be read from.
-/
namespace StyledMarkup.Token

/-- The list with a token put in front. A text grows into a text that follows. -/
def attach : Token → List Token → List Token
  | text a, text b :: rest => text (a ++ b) :: rest
  | text a, rest => if a = "" then rest else text a :: rest
  | token, rest => token :: rest

/-- What is left of the tokens when they are written and read again. -/
def fuse (tokens : List Token) : List Token := tokens.foldr attach []

@[simp] theorem fuse_nil : fuse [] = [] := rfl

@[simp] theorem fuse_cons (token : Token) (tokens : List Token) :
    fuse (token :: tokens) = attach token (fuse tokens) := rfl

@[simp] theorem attach_opening (name : String) (tokens : List Token) :
    attach (opening name) tokens = opening name :: tokens := rfl

@[simp] theorem attach_closing (name : String) (tokens : List Token) :
    attach (closing name) tokens = closing name :: tokens := rfl

@[simp] theorem attach_empty (tokens : List Token) : attach (text "") tokens = tokens := by
  cases tokens with
  | nil => rfl
  | cons token rest => cases token <;> simp [attach]

/-- A token stands in front as it is, unless it is an empty text or meets a text. -/
theorem attach_cases (token : Token) (tokens : List Token) :
    token.attach tokens = token :: tokens ∨
      (token = text "" ∧ token.attach tokens = tokens) ∨
      ∃ a b rest, token = text a ∧ tokens = text b :: rest ∧
        token.attach tokens = text (a ++ b) :: rest := by
  cases token with
  | opening name => exact .inl rfl
  | closing name => exact .inl rfl
  | text a =>
      by_cases ha : a = ""
      · subst ha
        exact .inr (.inl ⟨rfl, attach_empty tokens⟩)
      · cases tokens with
        | nil => exact .inl (by simp [attach, ha])
        | cons next rest =>
            cases next with
            | text b => exact .inr (.inr ⟨a, b, rest, rfl, rfl, rfl⟩)
            | opening name => exact .inl (by simp [attach, ha])
            | closing name => exact .inl (by simp [attach, ha])

theorem attach_text_text (a b : String) (tokens : List Token) :
    attach (text a) (attach (text b) tokens) = attach (text (a ++ b)) tokens := by
  by_cases ha : a = ""
  · simp [ha]
  by_cases hb : b = ""
  · simp [hb]
  have hab : a ++ b ≠ "" := by simp [ha]
  cases tokens with
  | nil => simp [attach, ha, hb]
  | cons token rest => cases token <;> simp [attach, ha, hb, String.append_assoc]

/-- What goes along the tokens and passes over texts does not notice that texts are fused. -/
theorem foldlM_fuse {m : Type → Type} [Monad m] [LawfulMonad m] {state : Type}
    {step : state → Token → m state} (h : ∀ s written, step s (text written) = pure s)
    (s : state) (tokens : List Token) :
    (fuse tokens).foldlM step s = tokens.foldlM step s := by
  induction tokens generalizing s with
  | nil => rfl
  | cons token tokens ih =>
      rw [fuse_cons]
      rcases token.attach_cases (fuse tokens) with heq | ⟨rfl, heq⟩ | ⟨a, b, rest, rfl, hfuse, heq⟩
      · simp only [heq, List.foldlM_cons, ih]
      · simp only [heq, List.foldlM_cons, h, pure_bind, ih]
      · rw [hfuse] at ih
        simp only [List.foldlM_cons, h, pure_bind] at ih
        simp only [heq, List.foldlM_cons, h, pure_bind, ih]

/-- The tokens that reading gives back as they were written. -/
def Legible : Token → Prop
  | text written => ∀ c ∈ written.toList, isText c = true
  | opening name =>
      name ≠ "" ∧ name.toList.head? ≠ some '/' ∧ ∀ c ∈ name.toList, isBody c = true
  | closing name => ∀ c ∈ name.toList, isBody c = true

theorem utf8Length_append (a b : List Char) :
    utf8Length (a ++ b) = utf8Length a + utf8Length b := by
  induction a with
  | nil => simp [utf8Length]
  | cons c a ih => simp only [List.cons_append, utf8Length, ih, Nat.add_assoc]

/-- Reading takes all the text there is. -/
theorem scan_cons_of_isText (offset : Nat) {c : Char} (hc : isText c = true) (cs : List Char) :
    scan offset (c :: cs) =
      (scan (offset + utf8Length (c :: cs.takeWhile isText)) (cs.dropWhile isText)).cons
        (text (String.ofList (c :: cs.takeWhile isText))) := by
  rw [scan, if_pos hc]

/-- At a character that is no text, reading cannot go on with a text. -/
theorem attach_scan_tag (offset : Nat) {a : String} (ha : a ≠ "") {input : List Char}
    (h : input.head?.all (fun c => !isText c) = true) :
    attach (text a) (scan offset input).tokens = text a :: (scan offset input).tokens := by
  cases input with
  | nil => simp [scan, attach, ha]
  | cons c cs =>
      have hc : isText c = false := by simpa using h
      rw [scan, if_neg (by simp [hc])]
      split
      · simp [attach, ha]
      · rename_i body rest _
        unfold ofBody
        split <;> simp [TokenStream.cons, attach, ha]

/-- A text is read as one token, together with what follows of text. -/
theorem scan_text (offset : Nat) {a : List Char} (h : ∀ c ∈ a, isText c = true)
    (rest : List Char) :
    scan offset (a ++ rest) =
      ⟨attach (text (String.ofList a)) (scan (offset + utf8Length a) rest).tokens,
        (scan (offset + utf8Length a) rest).truncation⟩ := by
  cases a with
  | nil => simp [utf8Length]
  | cons c cs =>
      have hc : isText c = true := h c List.mem_cons_self
      have hcs : ∀ d ∈ cs, isText d = true := fun d hd => h d (List.mem_cons_of_mem c hd)
      have hne : String.ofList (c :: cs) ≠ "" := by simp
      rw [List.cons_append, scan_cons_of_isText _ hc, List.takeWhile_append_of_pos hcs,
        List.dropWhile_append_of_pos hcs]
      by_cases hr : rest.head?.all (fun d => !isText d) = true
      · have htake : rest.takeWhile isText = [] := by
          cases rest <;> simp_all
        have hdrop : rest.dropWhile isText = rest := by
          cases rest <;> simp_all
        rw [htake, hdrop, List.append_nil, attach_scan_tag _ hne hr]
        rfl
      · obtain ⟨d, ds, rfl, hd⟩ : ∃ d ds, rest = d :: ds ∧ isText d = true := by
          cases rest with
          | nil => simp at hr
          | cons d ds => exact ⟨d, ds, rfl, by simpa using hr⟩
        have hlen : offset + utf8Length (c :: (cs ++ (d :: ds).takeWhile isText)) =
            offset + utf8Length (c :: cs) + utf8Length (d :: ds.takeWhile isText) := by
          rw [List.takeWhile_cons_of_pos hd, ← List.cons_append, utf8Length_append]
          omega
        have htext : String.ofList (c :: (cs ++ (d :: ds).takeWhile isText)) =
            String.ofList (c :: cs) ++ String.ofList (d :: ds.takeWhile isText) := by
          rw [List.takeWhile_cons_of_pos hd, ← String.ofList_append, List.cons_append]
        rw [hlen, htext, List.dropWhile_cons_of_pos hd, scan_cons_of_isText _ hd]
        rfl

/-- A tag is read as such when its body is not empty. -/
theorem scan_tag (offset : Nat) {body : List Char} (hne : body ≠ [])
    (h : ∀ c ∈ body, isBody c = true) (rest : List Char) :
    scan offset ('<' :: (body ++ '>' :: rest)) =
      (scan (offset + utf8Length body + 2) rest).cons (ofBody body) := by
  have hsplit : splitTag (body ++ '>' :: rest) = .ok (body, rest) := by
    have hclose : isBody '>' = false := by decide
    simp [splitTag, List.dropWhile_append_of_pos h, List.takeWhile_append_of_pos h, hclose, hne]
  rw [scan, if_neg (by decide)]
  split
  · rename_i cause hcause
    simp [hsplit] at hcause
  · rename_i body' rest' hread
    rw [hsplit] at hread
    cases hread
    rfl

theorem ofBody_opening {name : String} (h : name.toList.head? ≠ some '/') :
    ofBody name.toList = opening name := by
  unfold ofBody
  split
  · rename_i heq
    simp [heq] at h
  · simp

/-- One token in front of what is read from the rest. -/
theorem scan_render (offset : Nat) {token : Token} (h : token.Legible) (rest : List Char) :
    ∃ next, scan offset (token.render.toList ++ rest) =
      ⟨attach token (scan next rest).tokens, (scan next rest).truncation⟩ := by
  cases token with
  | text written =>
      refine ⟨offset + utf8Length written.toList, ?_⟩
      simpa [render] using scan_text offset h rest
  | opening name =>
      obtain ⟨hne, hslash, hbody⟩ := h
      refine ⟨offset + utf8Length name.toList + 2, ?_⟩
      have hscan := scan_tag offset (by simpa using hne) hbody rest
      rw [ofBody_opening hslash] at hscan
      simpa [render, TokenStream.cons] using hscan
  | closing name =>
      refine ⟨offset + utf8Length ('/' :: name.toList) + 2, ?_⟩
      have hbody : ∀ c ∈ '/' :: name.toList, isBody c = true := by
        intro c hc
        rcases List.mem_cons.1 hc with rfl | hc
        · decide
        · exact h c hc
      have hscan := scan_tag offset (List.cons_ne_nil _ _) hbody rest
      simpa [render, TokenStream.cons, ofBody] using hscan

theorem scan_renderAll (offset : Nat) {tokens : List Token}
    (h : ∀ token ∈ tokens, token.Legible) :
    scan offset (renderAll tokens).toList = ⟨fuse tokens, none⟩ := by
  induction tokens generalizing offset with
  | nil => simp [scan]
  | cons token tokens ih =>
      obtain ⟨next, hscan⟩ := scan_render offset (h token List.mem_cons_self)
        (renderAll tokens).toList
      rw [renderAll_cons, String.toList_append, hscan,
        ih next fun token htoken => h token (List.mem_cons_of_mem _ htoken)]
      rfl

/-- What is written is read back fused, and none of it is dropped. -/
theorem tokenize_renderAll {tokens : List Token} (h : ∀ token ∈ tokens, token.Legible) :
    tokenize (renderAll tokens) = ⟨fuse tokens, none⟩ := scan_renderAll 0 h

end StyledMarkup.Token
