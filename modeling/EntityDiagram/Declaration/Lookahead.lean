import EntityDiagram.Source.Token

/-!
# Looking ahead in a list of tokens

What the readers of declarations ask about the tokens in front of them. All of it depends on the
lexemes and on the line breaks between them alone. Behind the last token there is no lexeme, and
every question about it is answered no.
-/

namespace EntityDiagram.Declaration

open Source (Lexeme Token)

/-- The lexeme so many tokens ahead. -/
def lexemeAt? (tokens : List Token) (offset : Nat) : Option Lexeme :=
  tokens[offset]?.map Token.lexeme

/-- The punctuation mark stands so many tokens ahead. -/
def markAt (tokens : List Token) (offset : Nat) (mark : String) : Bool :=
  lexemeAt? tokens offset == some (.punct mark)

/-- The word stands so many tokens ahead. -/
def wordAt (tokens : List Token) (offset : Nat) (word : String) : Bool :=
  lexemeAt? tokens offset == some (.ident word)

/-- The name that stands so many tokens ahead, if a name stands there. -/
def nameAt? (tokens : List Token) (offset : Nat) : Option String :=
  match lexemeAt? tokens offset with
  | some (.ident name) => some name
  | _ => none

/-- A name stands so many tokens ahead. -/
def identAt (tokens : List Token) (offset : Nat) : Bool :=
  (nameAt? tokens offset).isSome

/-- A name of the list stands so many tokens ahead. -/
def oneOfAt (tokens : List Token) (offset : Nat) (names : List String) : Bool :=
  (nameAt? tokens offset).any names.contains

/-- The next token stands on a new line. -/
def onNewLine (tokens : List Token) : Bool :=
  tokens.head?.any fun token => token.lead.newline

/-- The mark that closes a bracket. -/
def closerOf? (text : String) : Option String :=
  if text = "(" then some ")"
  else if text = "[" then some "]"
  else if text = "\x7b" then some "\x7d"
  else none

/-- The lexeme opens a bracket. -/
def opens : Lexeme → Bool
  | .punct mark => (closerOf? mark).isSome
  | _ => false

/-- The lexeme closes a bracket. -/
def closes : Lexeme → Bool
  | .punct mark => mark == ")" || mark == "]" || mark == "\x7d"
  | _ => false

/-- The name of a member, or a bracket that may open one, stands so many tokens ahead. -/
def memberNameAt (tokens : List Token) (offset : Nat) : Bool :=
  match lexemeAt? tokens offset with
  | some (.ident _) | some (.string _) | some (.number _) => true
  | some (.punct mark) => mark == "["
  | _ => false

/-- The operand of a type operator may start so many tokens ahead. -/
def operandAt (tokens : List Token) (offset : Nat) : Bool :=
  match lexemeAt? tokens offset with
  | some (.ident _) | some (.string _) | some (.number _) | some (.template _) => true
  | some (.punct mark) => mark == "(" || mark == "[" || mark == "\x7b" || mark == "-"
  | _ => false

/-- An arrow stands behind the bracket that closes the open ones. -/
def arrowBehindBrackets : Nat → List Token → Bool
  | _, [] => false
  | depth, token :: rest =>
    if opens token.lexeme then arrowBehindBrackets (depth + 1) rest
    else if closes token.lexeme then
      if depth ≤ 1 then markAt rest 0 "=>" else arrowBehindBrackets (depth - 1) rest
    else arrowBehindBrackets depth rest

/-- The bracket in front opens the parameters of a function type: it is closed at once, its first
parameter is a rest parameter, or an arrow stands behind it. -/
def functionTypeAhead (tokens : List Token) : Bool :=
  markAt tokens 1 ")" || markAt tokens 1 "..." || arrowBehindBrackets 0 tokens

/-- The brace in front opens a mapped type: behind it stand, with an optional sign and an optional
`readonly`, a square bracket, a name and `in`. -/
def mappedTypeAhead (tokens : List Token) : Bool :=
  let afterSign := if markAt tokens 1 "+" || markAt tokens 1 "-" then 2 else 1
  let bracket := if wordAt tokens afterSign "readonly" then afterSign + 1 else afterSign
  markAt tokens bracket "[" && identAt tokens (bracket + 1) && wordAt tokens (bracket + 2) "in"

/-- The words that may stand before the keyword of a declaration. -/
def declarationModifiers : List String :=
  ["export", "declare", "default"]

/-- How many modifiers stand in front. -/
def modifierCount : List Token → Nat
  | [] => 0
  | token :: rest =>
    match token.lexeme with
    | .ident name => if declarationModifiers.contains name then modifierCount rest + 1 else 0
    | _ => 0

/-- The declarations that are read in full. -/
inductive DeclarationKind where
  | interface
  | alias
  deriving DecidableEq, Repr

/-- The declaration that starts here, if one does, and the number of its modifiers. -/
def declarationAhead? (tokens : List Token) : Option (DeclarationKind × Nat) :=
  let offset := modifierCount tokens
  if wordAt tokens offset "interface" && identAt tokens (offset + 1) then
    some (.interface, offset)
  else if wordAt tokens offset "type" && identAt tokens (offset + 1) &&
      (markAt tokens (offset + 2) "=" || markAt tokens (offset + 2) "<") then
    some (.alias, offset)
  else none

end EntityDiagram.Declaration
