import StyledMarkup.Proofs.RepeatedConversion
import StyledMarkup.Proofs.StyledContent

/-!
# What remains visible

On its way through a conversion a text is cut into words or kept as it stands, joined
with its neighbours by one of two rules, put together again by another two, and cut into
tokens once more. White space comes and goes, and runs that hold nothing are left out.
All other characters are kept, in their order: none is lost, and none is added.

For this it matters that literal text is read in one piece. A literal run of several
pieces, as other documents may hold it, can lose some of them when it is joined.
-/
namespace StyledMarkup

/-- The characters of a text but for white space. -/
def visible (text : String) : List Char := text.toList.filter fun c => !Run.isSeparator c

@[simp] theorem visible_empty : visible "" = [] := rfl

@[simp] theorem visible_space : visible " " = [] := by decide

@[simp] theorem visible_append (a b : String) : visible (a ++ b) = visible a ++ visible b := by
  simp [visible]

namespace Words

theorem flatten_splitOnP (separator : Char → Bool) (text : List Char) :
    (text.splitOnP separator).flatten = text.filter fun c => !separator c := by
  induction text with
  | nil => rfl
  | cons c rest ih =>
      obtain ⟨first, others, hsplit⟩ := List.exists_cons_of_ne_nil
        (List.splitOnP_ne_nil separator rest)
      rw [hsplit] at ih
      rw [List.splitOnP_cons_eq_if_modifyHead, hsplit]
      cases hc : separator c with
      | true => simpa [hc] using ih
      | false => simpa [hc] using ih

theorem join_map_ofList (pieces : List (List Char)) :
    String.join (pieces.map String.ofList) = String.ofList pieces.flatten := by
  induction pieces with
  | nil => rfl
  | cons piece pieces ih => simp [ih]

/-- The words of a text hold all of it but the separators. -/
theorem join_split (separator : Char → Bool) (text : String) :
    String.join (split separator text) =
      String.ofList (text.toList.filter fun c => !separator c) := by
  rw [split, join_map_ofList, List.flatten_filter_not_isEmpty, flatten_splitOnP]

theorem visible_join_split (text : String) :
    visible (String.join (split Run.isSeparator text)) = visible text := by
  simp [visible, join_split]

/-- Putting words together adds only white space. -/
theorem visible_intercalate (words : List String) :
    visible (" ".intercalate words) = visible (String.join words) := by
  induction words with
  | nil => rfl
  | cons word rest ih =>
      by_cases hrest : rest = []
      · simp [hrest]
      · rw [String.intercalate_cons_of_ne_nil hrest]
        simp [ih]

end Words

namespace Token

def text? : Token → Option String
  | text written => some written
  | opening _ => none
  | closing _ => none

/-- The texts among the tokens. -/
def texts (tokens : List Token) : List String := tokens.filterMap text?

@[simp] theorem texts_nil : texts [] = [] := rfl

@[simp] theorem texts_text (written : String) (tokens : List Token) :
    texts (text written :: tokens) = written :: texts tokens := rfl

@[simp] theorem texts_opening (name : String) (tokens : List Token) :
    texts (opening name :: tokens) = texts tokens := rfl

@[simp] theorem texts_closing (name : String) (tokens : List Token) :
    texts (closing name :: tokens) = texts tokens := rfl

theorem texts_append (a b : List Token) : texts (a ++ b) = texts a ++ texts b :=
  List.filterMap_append

theorem texts_edits (edits : List TagEdit) : texts (edits.map TagEdit.token) = [] := by
  induction edits with
  | nil => rfl
  | cons edit edits ih => cases edit <;> exact ih

/-- Fusing texts moves none of their characters. -/
theorem join_texts_fuse (tokens : List Token) :
    String.join (texts (fuse tokens)) = String.join (texts tokens) := by
  induction tokens with
  | nil => rfl
  | cons token tokens ih =>
      rw [fuse_cons]
      rcases token.attach_cases (fuse tokens) with h | ⟨rfl, h⟩ | ⟨a, b, rest, rfl, hfuse, h⟩
      · rw [h]
        cases token <;> simp [ih]
      · rw [h, ih]
        simp
      · -- The text has met the first of the fused texts, which the induction speaks of.
        rw [hfuse] at ih
        rw [h]
        simp [← ih, String.append_assoc]

end Token

namespace Run

theorem visible_ofText (style : Style) (written : String) :
    visible (String.join (ofText style written).words) = visible written := by
  unfold ofText
  split
  · simp
  · exact Words.visible_join_split written

theorem visible_text (run : Run) : visible run.text = visible (String.join run.words) := by
  unfold text
  split
  · rfl
  · exact Words.visible_intercalate run.words

theorem join_words_of_isEmpty {run : Run} (h : run.isEmpty = true) :
    String.join run.words = "" := by
  unfold isEmpty at h
  split at h <;> simp_all

/-- Literal text is in one piece, as reading leaves it. -/
def IsWhole (run : Run) : Prop := run.style.literal = true → ∃ written, run.words = [written]

theorem isWhole_ofText (style : Style) (written : String) : (ofText style written).IsWhole :=
  fun hliteral => ⟨written, if_pos hliteral⟩

theorem IsWhole.absorb {a : Run} (h : a.IsWhole) (b : Run) : (a.absorb b).IsWhole := by
  intro hliteral
  rw [absorb_style] at hliteral
  obtain ⟨written, hwords⟩ := h hliteral
  rw [Run.absorb, if_pos hliteral, hwords]
  cases b.words with
  | nil => exact ⟨written, hwords⟩
  | cons text others => exact ⟨written ++ text, rfl⟩

theorem IsWhole.isUndivided {run : Run} (h : run.IsWhole) : run.IsUndivided := by
  intro hliteral
  obtain ⟨written, hwords⟩ := h hliteral
  simp [hwords]

end Run

namespace Document

theorem join_allWords_cons (run : Run) (rest : Document) :
    String.join (allWords (run :: rest)) = String.join run.words ++ String.join (allWords rest) :=
  String.join_append

theorem toList_join_allWords (document : Document) :
    (String.join document.allWords).toList =
      document.flatMap fun run => (String.join run.words).toList := by
  induction document with
  | nil => rfl
  | cons run rest ih => rw [join_allWords_cons, String.toList_append, ih, List.flatMap_cons]

/-- Compaction keeps the text, if literal text is in one piece. -/
theorem join_allWords_compact {document : Document} (h : ∀ run ∈ document, run.IsWhole) :
    String.join document.compact.allWords = String.join document.allWords := by
  rw [← String.toList_inj, toList_join_allWords, toList_join_allWords]
  refine flatMap_compact (fun run _ hnothing => ?_) (fun a b _ ha _ => ha.absorb b)
    (fun a b halike ha hb => ?_) h
  · rw [Run.join_words_of_isEmpty hnothing, String.toList_empty]
  · rw [Run.join_words_absorb ha.isUndivided hb.isUndivided (Style.literal_of_alike halike),
      String.toList_append]

end Document

namespace Scope

theorem visible_runs (scope : Scope) (token : Token) :
    visible (String.join (Document.allWords (scope.runs token))) =
      visible (String.join (Token.texts [token])) := by
  cases token with
  | text written =>
      by_cases hempty : written = ""
      · simp [runs, hempty, Document.allWords]
      · simp [runs, hempty, Document.allWords, Run.visible_ofText]
  | opening name => rfl
  | closing name => rfl

/-- The runs that are read show what the texts show. -/
theorem visible_read {scope : Scope} {tokens : List Token} {runs : Document}
    (h : scope.read tokens = .ok runs) :
    visible (String.join runs.allWords) = visible (String.join (Token.texts tokens)) := by
  induction tokens generalizing scope runs with
  | nil =>
      cases h
      rfl
  | cons token tokens ih =>
      obtain ⟨next, later, -, hrest, rfl⟩ := exists_of_read_cons h
      have htoken := Token.texts_append [token] tokens
      rw [List.singleton_append] at htoken
      rw [htoken, String.join_append, visible_append, ← ih hrest, ← visible_runs scope,
        Document.allWords, List.flatMap_append, String.join_append, visible_append]
      rfl

end Scope

namespace Document

theorem isWhole_of_ofTokens {tokens : List Token} {runs : Document}
    (h : ofTokens tokens = .ok runs) : ∀ run ∈ runs, run.IsWhole := by
  intro run hrun
  obtain ⟨-, written, -, reached, -, -, rfl⟩ := Scope.exists_text_of_mem_read h hrun
  exact Run.isWhole_ofText reached.style written

theorem texts_write (writer : Writer) (document : Document) :
    Token.texts (writer.write document) = document.map Run.text := by
  induction document generalizing writer with
  | nil =>
      have hclosing := Token.texts_edits (writer.openTags.map .closes)
      rwa [List.map_map] at hclosing
  | cons run rest ih =>
      rw [Writer.write, Token.texts_append, Token.texts_edits, List.nil_append, Token.texts_text,
        ih, List.map_cons]

theorem visible_join_map_text (document : Document) :
    visible (String.join (document.map Run.text)) = visible (String.join document.allWords) := by
  induction document with
  | nil => rfl
  | cons run rest ih =>
      rw [List.map_cons, String.join_cons, visible_append, ih, Run.visible_text,
        join_allWords_cons, visible_append]

/-- The markup of a document shows the words of the document. -/
theorem visible_texts_markup {document : Document}
    (h : ∀ run ∈ document, ∀ word ∈ run.words, '<' ∉ word.toList) :
    visible (String.join (Token.texts (tokenize document.markup).tokens)) =
      visible (String.join document.allWords) := by
  rw [tokenize_markup h, Token.join_texts_fuse, tokens, texts_write, visible_join_map_text]

end Document

/-- The text of markup up to the cut, the words of the document that it converts to and
the text of the markup that comes out are the same but for white space. -/
theorem visible_convert {markup : String} {conversion : Conversion}
    (h : convert markup = .ok conversion) :
    visible (String.join (Token.texts (tokenize markup).tokens)) =
        visible (String.join conversion.document.allWords) ∧
      visible (String.join conversion.document.allWords) =
        visible (String.join (Token.texts (tokenize conversion.markup).tokens)) := by
  obtain ⟨runs, hread, hdocument, -⟩ := exists_runs_of_convert h
  have hwhole := Document.isWhole_of_ofTokens hread
  constructor
  · rw [hdocument, Document.join_allWords_compact hwhole]
    exact (Scope.visible_read hread).symm
  · rw [convert_markup h]
    exact (Document.visible_texts_markup (noTag_of_convert h)).symm

/-- Markup with literal text in two tags, a run of white space alone, and a cut. -/
def cutMarkup : String := "a <TT>b  c</TT><TT>d</TT> \t<I> </I>e<>f"

theorem visible_convert_cutMarkup :
    ∃ conversion, convert cutMarkup = .ok conversion ∧ conversion.isTruncated = true ∧
      visible (String.join (Token.texts (tokenize cutMarkup).tokens)) =
        visible (String.join conversion.document.allWords) ∧
      visible (String.join conversion.document.allWords) =
        visible (String.join (Token.texts (tokenize conversion.markup).tokens)) := by
  have h : convert cutMarkup =
      .ok ⟨[⟨{}, ["a"]⟩, ⟨{ literal := true }, ["b  cd"]⟩, ⟨{}, ["e"]⟩], "ab  cde",
        some ⟨36, .emptyTag⟩⟩ := by decide +kernel
  exact ⟨_, h, rfl, visible_convert h⟩

end StyledMarkup
