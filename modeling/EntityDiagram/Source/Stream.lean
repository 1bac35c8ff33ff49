import EntityDiagram.Source.Gap
import EntityDiagram.Source.Literal

/-!
# From text to tokens

A text is read gap by gap and lexeme by lexeme. Which lexeme starts at a character depends on the
character and the one behind it alone, with one exception: a slash starts a regular expression where
an expression may begin, which the lexeme before it decides, and is division anywhere else.

A token is placed at its first character, but for templates: one that runs over several lines has
the column of its first character and the line of its last. The same holds for the error about a
template without an end.
-/

namespace EntityDiagram.Source

/-- A character that may start a name. -/
def isNameStart (c : Char) : Bool :=
  Text.isLetter c || c == '_' || c == '$'

/-- A character that may continue a name. -/
def isNamePart (c : Char) : Bool :=
  Text.isAlphanumeric c || c == '_' || c == '$'

/-- The punctuation marks behind which an expression may begin. -/
def marksBeforeExpression : List String :=
  ["=", "(", ",", ":", "[", "!", "&", "|", "?", "\x7b", "\x7d", ";", "+", "-", "*", "%", "<", ">",
    "~", "^", "=>", "..."]

/-- The keywords behind which an expression may begin. -/
def keywordsBeforeExpression : List String :=
  ["return", "typeof", "case", "do", "else", "in", "of", "new", "delete", "void", "throw", "yield",
    "await", "instanceof"]

/-- Whether a slash behind the given lexeme starts a regular expression. -/
def regexAllowedAfter : Option Lexeme → Bool
  | none => true
  | some (.punct mark) => marksBeforeExpression.contains mark
  | some (.ident name) => keywordsBeforeExpression.contains name
  | some _ => false

/-- A lexeme that was read, where it is placed, and where the text goes on behind it. -/
structure LexemeSpan where
  lexeme : Lexeme
  place : Position
  behind : Position
  rest : List Char

/-- The punctuation mark at the start of a text: `=>`, `...`, or a single character. -/
def markAt (c : Char) (rest : List Char) : List Char :=
  if c = '=' ∧ rest.head? = some '>' then ['=', '>']
  else if c = '.' ∧ rest.take 2 = ['.', '.'] then ['.', '.', '.']
  else [c]

/-- Whether a numeral starts here, be it a valid one or not. -/
def startsNumeral (c : Char) (rest : List Char) : Bool :=
  Text.isDigit c || (c == '.' && rest.head?.any Text.isDigit)

/-- The lexeme that starts with the character `c` at a position. -/
def readLexeme
    (previous : Option Lexeme) (start : Position) (c : Char) (rest : List Char) :
    Except SourceError LexemeSpan :=
  if isNameStart c then
    let name := c :: rest.takeWhile isNamePart
    .ok ⟨.ident (String.ofList name), start, start.right name.length, (c :: rest).drop name.length⟩
  else if startsNumeral c rest then
    match Numeral.spelling? (c :: rest) with
    | none => .error ⟨.invalidNumber, start⟩
    | some spelling =>
      .ok ⟨.number (String.ofList spelling), start, start.right spelling.length,
        (c :: rest).drop spelling.length⟩
  else if c = '\'' ∨ c = '"' then
    match readString c rest with
    | .error fault => .error ⟨fault, start⟩
    | .ok (text, behind) =>
      .ok ⟨.string (.ofList text), start, start.right ((c :: rest).length - behind.length),
        behind⟩
  else if c = '\x60' then
    match readTemplate 0 (start.right 1) rest with
    | .error ending => .error ⟨.unterminatedTemplate, ⟨ending.line, start.column⟩⟩
    | .ok span =>
      .ok ⟨.template (String.ofList span.text), ⟨span.behind.line, start.column⟩, span.behind,
        span.rest⟩
  else if c = '/' ∧ regexAllowedAfter previous = true then
    match readRegexBody false rest with
    | none => .error ⟨.unterminatedRegex, start⟩
    | some (body, behind) =>
      let spelling := c :: body ++ behind.takeWhile isNamePart
      .ok ⟨.regex (String.ofList spelling), start, start.right spelling.length,
        behind.dropWhile isNamePart⟩
  else
    let mark := markAt c rest
    .ok ⟨.punct (String.ofList mark), start, start.right mark.length,
      (c :: rest).drop mark.length⟩

theorem drop_length_lt
    {c : Char} {rest front : List Char}
    (h : front ≠ []) :
    ((c :: rest).drop front.length).length < (c :: rest).length := by
  have := List.length_pos_iff.mpr h
  simp only [List.length_drop, List.length_cons]
  omega

/-- Reading a lexeme uses up at least one character. -/
theorem readLexeme_length
    {previous : Option Lexeme} {start : Position} {c : Char} {rest : List Char} {span : LexemeSpan}
    (h : readLexeme previous start c rest = .ok span) :
    span.rest.length < (c :: rest).length := by
  unfold readLexeme at h
  split at h
  · simp only [← Except.ok.inj h]
    exact drop_length_lt (by simp)
  · split at h
    · split at h
      · simp at h
      · rename_i spelling hspelling
        simp only [← Except.ok.inj h]
        exact drop_length_lt (Numeral.spelling?_ne_nil hspelling)
    · split at h
      · split at h
        · simp at h
        · rename_i text behind hread
          have := readString_length hread
          simp only [← Except.ok.inj h, List.length_cons]
          omega
      · split at h
        · split at h
          · simp at h
          · rename_i found hread
            have := readTemplate_length hread
            simp only [← Except.ok.inj h, List.length_cons]
            omega
        · split at h
          · split at h
            · simp at h
            · rename_i body behind hread
              have := readRegexBody_length hread
              have := length_dropWhile_le isNamePart behind
              simp only [← Except.ok.inj h, List.length_cons]
              omega
          · simp only [← Except.ok.inj h]
            refine drop_length_lt ?_
            unfold markAt
            split
            · simp
            · split <;> simp

/-- The tokens of the text behind the given lexeme. -/
def readTokens
    (previous : Option Lexeme) (position : Position) (cs : List Char) :
    Except SourceError TokenStream :=
  match _hgap : readGap ⟨position, false, []⟩ cs with
  | .error e => .error e
  | .ok (lead, []) => .ok ⟨[], lead⟩
  | .ok (lead, c :: rest) =>
    match _hlexeme : readLexeme previous lead.position c rest with
    | .error e => .error e
    | .ok span =>
      match readTokens (some span.lexeme) span.behind span.rest with
      | .error e => .error e
      | .ok stream =>
        let token := ⟨span.lexeme, { lead with position := span.place }⟩
        .ok { stream with tokens := token :: stream.tokens }
termination_by cs.length
decreasing_by
  have := readGap_length _hgap
  have := readLexeme_length _hlexeme
  omega

/-- One step of reading tokens: a gap, a lexeme, and the tokens behind it. -/
theorem readTokens_eq
    (previous : Option Lexeme) (position : Position) (cs : List Char) :
    readTokens previous position cs =
      match readGap ⟨position, false, []⟩ cs with
      | .error e => .error e
      | .ok (lead, []) => .ok ⟨[], lead⟩
      | .ok (lead, c :: rest) =>
        match readLexeme previous lead.position c rest with
        | .error e => .error e
        | .ok span =>
          match readTokens (some span.lexeme) span.behind span.rest with
          | .error e => .error e
          | .ok stream =>
            let token := ⟨span.lexeme, { lead with position := span.place }⟩
            .ok { stream with tokens := token :: stream.tokens } := by
  rw [readTokens]
  split
  · simp_all
  · simp_all
  · split <;> simp_all

/-- The tokens of a text. -/
def TokenStream.ofText (text : String) : Except SourceError TokenStream :=
  readTokens none .start text.toList

end EntityDiagram.Source
