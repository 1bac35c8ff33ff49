import EntityDiagram.Declaration.Lookahead
import EntityDiagram.Source.Stream

/-!
# Reading from a list of tokens

A reader takes a value off the front of a list of tokens or fails. A failure keeps the tokens that
were left, because the first of them (or the end of the text) is where the fault lies; that is the
only use that is made of positions.

Repetitions run on a budget of steps that they take from the number of tokens. Every step uses up a
token, so the budget never ends a repetition.
-/

namespace EntityDiagram.Declaration

open Source (Fault Lead Lexeme SourceError Token TokenStream)

/-- Why reading failed, and the tokens that were left. -/
structure ParseFailure where
  fault : Fault
  remaining : List Token

/-- The failure with the position of the first token that was left. -/
def ParseFailure.located (failure : ParseFailure) (ending : Lead) : SourceError :=
  ⟨failure.fault, ((failure.remaining.head?.map Token.lead).getD ending).position⟩

/-- Reads a value off the front of a list of tokens. -/
abbrev Parse := StateT (List Token) (Except ParseFailure)

namespace Parse

/-- Fails at the next token, with a fault that may name it. -/
def fail {α : Type} (fault : Option Lexeme → Fault) : Parse α :=
  fun tokens => .error ⟨fault (lexemeAt? tokens 0), tokens⟩

/-- Leaves out so many tokens. -/
def skip (count : Nat) : Parse Unit :=
  fun tokens => .ok ((), tokens.drop count)

/-- Takes the mark if it comes next, and tells whether it did. -/
def eat (mark : String) : Parse Bool :=
  fun tokens => if markAt tokens 0 mark then .ok (true, tokens.drop 1) else .ok (false, tokens)

/-- Takes the word if it comes next, and tells whether it did. -/
def eatWord (word : String) : Parse Bool :=
  fun tokens => if wordAt tokens 0 word then .ok (true, tokens.drop 1) else .ok (false, tokens)

/-- Takes the mark, which has to come next. -/
def expect (mark : String) : Parse Unit :=
  fun tokens =>
    if markAt tokens 0 mark then .ok ((), tokens.drop 1)
    else .error ⟨.expectedMark mark (lexemeAt? tokens 0), tokens⟩

/-- Takes a name, which has to come next. -/
def ident : Parse String :=
  fun tokens =>
    match nameAt? tokens 0 with
    | some name => .ok (name, tokens.drop 1)
    | none => .error ⟨.expectedIdentifier (lexemeAt? tokens 0), tokens⟩

/-- Checks that no token is left. -/
def expectEnd : Parse Unit :=
  fun tokens =>
    match tokens with
    | [] => .ok ((), [])
    | token :: _ => .error ⟨.unexpected (some token.lexeme), tokens⟩

/-- Tells whether the mark comes next. -/
def sees (mark : String) : Parse Bool :=
  fun tokens => .ok (markAt tokens 0 mark, tokens)

/-- What comes behind a mark, if the mark comes next. -/
def behind {α : Type} (mark : String) (reader : Parse α) : Parse (Option α) := do
  if ← eat mark then
    let value ← reader
    return some value
  else return none

/-- Items with commas between them, up to a closing mark that is left in place; a comma may stand
before it. -/
def commaListWithin {α : Type} (closer : String) (item : Parse α) : Nat → Parse (List α)
  | 0 => return []
  | steps + 1 => do
    if ← sees closer then return []
    else
      let first ← item
      if ← eat "," then
        let more ← commaListWithin closer item steps
        return first :: more
      else return [first]

/-- Items with commas between them, and the mark that closes them. -/
def commaList {α : Type} (closer : String) (item : Parse α) : Parse (List α) := do
  let tokens ← get
  let items ← commaListWithin closer item (tokens.length + 1)
  expect closer
  return items

/-- One or more items with a mark between them. -/
def chainWithin {α : Type} (mark : String) (item : Parse α) : Nat → Parse (List α)
  | 0 => return []
  | steps + 1 => do
    let first ← item
    if ← eat mark then
      let more ← chainWithin mark item steps
      return first :: more
    else return [first]

/-- One or more items with a mark between them. -/
def chain {α : Type} (mark : String) (item : Parse α) : Parse (List α) := do
  let tokens ← get
  chainWithin mark item (tokens.length + 1)

/-- The further parts of a dotted name, and the tokens behind them. -/
def dottedParts : List Token → List String × List Token
  | dot :: part :: rest =>
    match dot.lexeme, part.lexeme with
    | .punct ".", .ident name =>
      let (more, remaining) := dottedParts rest
      (name :: more, remaining)
    | _, _ => ([], dot :: part :: rest)
  | tokens => ([], tokens)

/-- A plain or dotted name. -/
def entityName : Parse String := do
  let first ← ident
  let (more, remaining) := dottedParts (← get)
  set remaining
  return ".".intercalate (first :: more)

/-- The spellings of the tokens up to the one that closes the open brackets, and the tokens behind
it. -/
def bracketed? : Nat → List Token → Option (List String × List Token)
  | _, [] => none
  | depth, token :: rest =>
    let depth' :=
      if opens token.lexeme then depth + 1
      else if closes token.lexeme then depth - 1
      else depth
    if depth' = 0 then some ([token.lexeme.spelling], rest)
    else (bracketed? depth' rest).map fun (parts, remaining) =>
      (token.lexeme.spelling :: parts, remaining)

/-- A bracketed group as text, its tokens written without white space between them. The next token
has to open it; what counts is the text of the token, not its kind. -/
def bracketedText : Parse String :=
  fun tokens =>
    let opener : Text := ((lexemeAt? tokens 0).map Lexeme.text).getD ""
    match opener.string?.bind fun mark => (closerOf? mark).map fun closer => (mark, closer) with
    | none => .error ⟨.noBracket opener, tokens⟩
    | some (mark, closer) =>
      match bracketed? 1 tokens.tail with
      | none => .error ⟨.unclosed closer, []⟩
      | some (parts, remaining) => .ok (String.join (mark :: parts), remaining)

/-- The tokens behind the default value of a parameter: it ends before a comma or a closing
parenthesis outside its own brackets. -/
def behindDefault : Int → List Token → List Token
  | _, [] => []
  | depth, token :: rest =>
    if depth = 0 ∧ (token.lexeme = .punct "," ∨ token.lexeme = .punct ")") then token :: rest
    else if opens token.lexeme then behindDefault (depth + 1) rest
    else if closes token.lexeme then behindDefault (depth - 1) rest
    else behindDefault depth rest

end Parse

end EntityDiagram.Declaration
