/-!
# Tokens of markup

Markup is text with tags in it. A tag is what stands between `<` and the next
`>`, and is not empty; it may hold further `<`. A leading `/` makes it a closing
tag and does not belong to its name. Everything else is text.

Reading never fails. A `<` that begins no tag cuts the input: what was read
before it stands, what follows is dropped, and the cut is reported with its
place in bytes of UTF-8.
-/
namespace StyledMarkup

inductive Token where
  | text (text : String)
  | opening (name : String)
  | closing (name : String)
  deriving DecidableEq, Repr, Inhabited

namespace Token

/-- The token as it stands in markup. -/
def render : Token → String
  | .text written => written
  | .opening name => "<" ++ name ++ ">"
  | .closing name => "</" ++ name ++ ">"

/-- The tag with the given characters between its brackets. -/
def ofBody : List Char → Token
  | '/' :: name => closing (String.ofList name)
  | body => opening (String.ofList body)

def renderAll (tokens : List Token) : String :=
  String.join (tokens.map render)

@[simp] theorem renderAll_nil : renderAll [] = "" := rfl

@[simp] theorem renderAll_cons (token : Token) (tokens : List Token) :
    renderAll (token :: tokens) = token.render ++ renderAll tokens := by
  rw [← String.toList_inj]
  simp [renderAll, String.toList_join]

@[simp] theorem renderAll_append (a b : List Token) :
    renderAll (a ++ b) = renderAll a ++ renderAll b := by
  rw [← String.toList_inj]
  simp [renderAll, String.toList_join]

theorem render_ofBody (body : List Char) :
    (ofBody body).render = "<" ++ String.ofList body ++ ">" := by
  unfold ofBody
  split
  · rename_i name
    rw [← String.toList_inj]
    simp [render]
  · rfl

end Token

/-- Why the rest of the input was dropped. -/
inductive TruncationCause where
  /-- `<>` -/
  | emptyTag
  /-- `<` with no `>` after it -/
  | unterminatedTag
  deriving DecidableEq, Repr

/-- Where and why the input was cut. -/
structure Truncation where
  /-- The bytes before the cut, in UTF-8. -/
  offset : Nat
  cause : TruncationCause
  deriving DecidableEq, Repr

def Truncation.message (truncation : Truncation) : String :=
  let subject :=
    match truncation.cause with
    | .emptyTag => "Empty tag"
    | .unterminatedTag => "Unterminated tag"
  subject ++ " at byte " ++ toString truncation.offset

/-- What is read from markup. -/
structure TokenStream where
  tokens : List Token
  truncation : Option Truncation
  deriving DecidableEq, Repr

namespace TokenStream

def isTruncated (stream : TokenStream) : Bool := stream.truncation.isSome

def cons (token : Token) (stream : TokenStream) : TokenStream :=
  { stream with tokens := token :: stream.tokens }

end TokenStream

namespace Token

def isText (c : Char) : Bool := c != '<'

def isBody (c : Char) : Bool := c != '>'

/-- The body of a tag whose `<` is already read, and what follows its `>`. -/
def splitTag (input : List Char) : Except TruncationCause (List Char × List Char) :=
  match input.dropWhile isBody with
  | [] => .error .unterminatedTag
  | _ :: rest =>
      let body := input.takeWhile isBody
      if body = [] then .error .emptyTag else .ok (body, rest)

/-- The first character that is no body character is the closing bracket. -/
theorem eq_bracket_of_dropWhile {input rest : List Char} {c : Char}
    (h : input.dropWhile isBody = c :: rest) : c = '>' := by
  have := List.head?_dropWhile_not isBody input
  simpa [h, isBody] using this

theorem splitTag_eq {input body rest : List Char} (h : splitTag input = .ok (body, rest)) :
    input = body ++ '>' :: rest := by
  have hsplit := List.takeWhile_append_dropWhile (p := isBody) (l := input)
  unfold splitTag at h
  split at h
  · simp at h
  · rename_i c tail hdrop
    have hc := eq_bracket_of_dropWhile hdrop
    simp only at h
    split at h
    · simp at h
    · simp only [Except.ok.injEq, Prod.mk.injEq] at h
      rw [← h.1, ← h.2, ← hc, ← hdrop, hsplit]

private theorem length_lt_of_splitTag {input body rest : List Char}
    (h : splitTag input = .ok (body, rest)) : rest.length < input.length := by
  rw [splitTag_eq h]
  simp
  omega

/-- The bytes that the characters take in UTF-8. -/
def utf8Length : List Char → Nat
  | [] => 0
  | c :: cs => c.utf8Size + utf8Length cs

/-- Reads from the byte `offset` on. -/
def scan (offset : Nat) (input : List Char) : TokenStream :=
  match input with
  | [] => ⟨[], none⟩
  | c :: cs =>
      if isText c then
        let text := c :: cs.takeWhile isText
        (scan (offset + utf8Length text) (cs.dropWhile isText)).cons (.text (String.ofList text))
      else
        match h : splitTag cs with
        | .error cause => ⟨[], some ⟨offset, cause⟩⟩
        | .ok (body, rest) =>
            (scan (offset + utf8Length body + 2) rest).cons (ofBody body)
  termination_by input.length
  decreasing_by
    · have := (List.dropWhile_sublist isText (l := cs)).length_le
      simp
      omega
    · have := length_lt_of_splitTag h
      simp
      omega

end Token

/-- The tokens of markup, up to its end or to the first `<` that begins no tag. -/
def tokenize (markup : String) : TokenStream := Token.scan 0 markup.toList

end StyledMarkup
