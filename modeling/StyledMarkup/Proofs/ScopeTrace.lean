import StyledMarkup.StyleScope
import StyledMarkup.Proofs.TokenFusion

/-!
# Scopes along a token list

The scope that is reached behind a list of tokens, apart from the runs that the
list adds. Texts leave it alone, so it does not matter whether neighbouring texts
are fused.
-/
namespace StyledMarkup.Scope

/-- The scope behind the tokens. -/
def advanceAll (scope : Scope) : List Token → Except UnknownTag Scope
  | [] => .ok scope
  | token :: rest =>
      match scope.advance token with
      | .error unknown => .error unknown
      | .ok next => next.advanceAll rest

@[simp] theorem advance_text (scope : Scope) (written : String) :
    scope.advance (.text written) = .ok scope := rfl

@[simp] theorem advanceAll_nil (scope : Scope) : scope.advanceAll [] = .ok scope := rfl

@[simp] theorem advanceAll_text (scope : Scope) (written : String) (tokens : List Token) :
    scope.advanceAll (.text written :: tokens) = scope.advanceAll tokens := rfl

theorem advanceAll_cons {scope next : Scope} {token : Token}
    (h : scope.advance token = .ok next) (tokens : List Token) :
    scope.advanceAll (token :: tokens) = next.advanceAll tokens := by
  rw [advanceAll, h]

/-- A run that succeeds succeeds token by token. -/
theorem exists_of_advanceAll_cons {scope reached : Scope} {token : Token} {tokens : List Token}
    (h : scope.advanceAll (token :: tokens) = .ok reached) :
    ∃ next, scope.advance token = .ok next ∧ next.advanceAll tokens = .ok reached := by
  cases hnext : scope.advance token with
  | error unknown => simp [advanceAll, hnext] at h
  | ok next =>
      rw [advanceAll_cons hnext] at h
      exact ⟨next, rfl, h⟩

theorem advanceAll_append {scope next : Scope} {a : List Token}
    (h : scope.advanceAll a = .ok next) (b : List Token) :
    scope.advanceAll (a ++ b) = next.advanceAll b := by
  induction a generalizing scope with
  | nil =>
      cases h
      rfl
  | cons token a ih =>
      obtain ⟨middle, hnext, hrest⟩ := exists_of_advanceAll_cons h
      rw [List.cons_append, advanceAll_cons hnext, ih hrest]

theorem read_cons {scope next : Scope} {token : Token} (h : scope.advance token = .ok next)
    (tokens : List Token) :
    scope.read (token :: tokens) = (next.read tokens).map (scope.runs token ++ ·) := by
  rw [read, h]

/-- Reading that succeeds succeeds token by token. -/
theorem exists_of_read_cons {scope : Scope} {token : Token} {tokens : List Token}
    {runs : Document} (h : scope.read (token :: tokens) = .ok runs) :
    ∃ next later, scope.advance token = .ok next ∧ next.read tokens = .ok later ∧
      runs = scope.runs token ++ later := by
  cases hnext : scope.advance token with
  | error unknown => simp [read, hnext] at h
  | ok next =>
      rw [read_cons hnext] at h
      cases hrest : next.read tokens with
      | error unknown => simp [hrest, Except.map] at h
      | ok later =>
          simp only [hrest, Except.map, Except.ok.injEq] at h
          exact ⟨next, later, rfl, hrest, h.symm⟩

/-- If no tag is unknown on the way, the runs so far stand before those that follow. -/
theorem read_append {scope next : Scope} {a : List Token} (h : scope.advanceAll a = .ok next) :
    ∃ runs, ∀ b, scope.read (a ++ b) = (next.read b).map (runs ++ ·) := by
  induction a generalizing scope with
  | nil =>
      cases h
      refine ⟨[], fun b => ?_⟩
      cases hb : next.read b <;> simp [hb, Except.map]
  | cons token a ih =>
      obtain ⟨middle, hnext, hrest⟩ := exists_of_advanceAll_cons h
      obtain ⟨runs, hruns⟩ := ih hrest
      refine ⟨scope.runs token ++ runs, fun b => ?_⟩
      rw [List.cons_append, read_cons hnext, hruns]
      cases next.read b <;> simp [Except.map]

theorem exists_read_of_advanceAll {scope reached : Scope} {tokens : List Token}
    (h : scope.advanceAll tokens = .ok reached) : ∃ runs, scope.read tokens = .ok runs := by
  obtain ⟨runs, hruns⟩ := read_append h
  have hread := hruns []
  rw [List.append_nil] at hread
  exact ⟨runs ++ [], hread⟩

/-- A text that is not empty is read as one run, in the scope that leads to it. -/
theorem read_text {scope next reached : Scope} {front back : List Token}
    (hfront : scope.advanceAll front = .ok next) {written : String} (h : written ≠ "")
    (hback : scope.advanceAll (front ++ .text written :: back) = .ok reached) :
    ∃ earlier later, scope.read (front ++ .text written :: back) =
      .ok (earlier ++ Run.ofText next.style written :: later) := by
  obtain ⟨earlier, hearlier⟩ := read_append hfront
  rw [advanceAll_append hfront, advanceAll_text] at hback
  obtain ⟨later, hlater⟩ := exists_read_of_advanceAll hback
  refine ⟨earlier, later, ?_⟩
  rw [hearlier, read_cons (advance_text next written), hlater]
  simp [Except.map, runs, h]

theorem advanceAll_eq_foldlM (scope : Scope) (tokens : List Token) :
    scope.advanceAll tokens = tokens.foldlM advance scope := by
  induction tokens generalizing scope with
  | nil => rfl
  | cons token tokens ih =>
      rw [List.foldlM_cons, advanceAll]
      cases scope.advance token with
      | error unknown => rfl
      | ok next => exact ih next

/-- Fusing texts does not change where the tags lead. -/
theorem advanceAll_fuse (scope : Scope) (tokens : List Token) :
    scope.advanceAll (Token.fuse tokens) = scope.advanceAll tokens := by
  rw [advanceAll_eq_foldlM, Token.foldlM_fuse advance_text, advanceAll_eq_foldlM]

/-- A text that is not empty ends up in one of the fused texts, behind what was
written before it and in the scope that this leads to. -/
theorem fuse_append_text (front : List Token) {written : String} (h : written ≠ "")
    (back : List Token) :
    ∃ before left right after,
      Token.fuse (front ++ .text written :: back) =
        before ++ .text (left ++ written ++ right) :: after ∧
      Token.renderAll before ++ left = Token.renderAll front ∧
      ∀ scope : Scope, scope.advanceAll before = scope.advanceAll front := by
  induction front with
  | nil =>
      rw [List.nil_append, Token.fuse_cons]
      rcases Token.fuse back with _ | ⟨next, rest⟩
      · exact ⟨[], "", "", [], by simp [Token.attach, h], rfl, fun _ => rfl⟩
      · cases next with
        | text following =>
            exact ⟨[], "", following, rest, by simp [Token.attach], rfl, fun _ => rfl⟩
        | opening name =>
            exact ⟨[], "", "", .opening name :: rest, by simp [Token.attach, h], rfl, fun _ => rfl⟩
        | closing name =>
            exact ⟨[], "", "", .closing name :: rest, by simp [Token.attach, h], rfl, fun _ => rfl⟩
  | cons token front ih =>
      obtain ⟨before, left, right, after, hfuse, hrender, hscope⟩ := ih
      have hcons (scope : Scope) :
          scope.advanceAll (token :: before) = scope.advanceAll (token :: front) := by
        simp only [advanceAll, hscope]
      rw [List.cons_append, Token.fuse_cons, hfuse, Token.renderAll_cons, ← hrender]
      cases token with
      | opening name =>
          exact ⟨.opening name :: before, left, right, after, rfl,
            by simp [String.append_assoc], hcons⟩
      | closing name =>
          exact ⟨.closing name :: before, left, right, after, rfl,
            by simp [String.append_assoc], hcons⟩
      | text a =>
          by_cases ha : a = ""
          · exact ⟨before, left, right, after, by simp [ha], by simp [ha, Token.render], hcons⟩
          cases before with
          | nil =>
              exact ⟨[], a ++ left, right, after, by simp [Token.attach, String.append_assoc],
                by simp [Token.render], hcons⟩
          | cons next rest =>
              cases next with
              | text b =>
                  exact ⟨.text (a ++ b) :: rest, left, right, after, rfl,
                    by simp [Token.render, String.append_assoc], hcons⟩
              | opening name =>
                  exact ⟨.text a :: .opening name :: rest, left, right, after,
                    by simp [Token.attach, ha], by simp [String.append_assoc], hcons⟩
              | closing name =>
                  exact ⟨.text a :: .closing name :: rest, left, right, after,
                    by simp [Token.attach, ha], by simp [String.append_assoc], hcons⟩

end StyledMarkup.Scope
