import EntityDiagram.Declaration.Parse.Types

/-!
# Statements

A file is read statement by statement. Interfaces and type aliases are read in full. Any other
statement is left out by counting brackets, up to a semicolon outside of brackets or to a word at the
start of a line that begins a new statement.

A line that starts a declaration ends the skipping even inside brackets, so that brackets out of
balance do not swallow the declarations behind them; but not inside a namespace or module, whose
declarations belong to it.
-/

namespace EntityDiagram.Declaration

open Source (Lexeme SourceError Token TokenStream)

/-- The words that begin a new statement at the start of a line. -/
def statementKeywords : List String :=
  ["abstract", "async", "class", "const", "declare", "enum", "export", "function", "import",
    "interface", "let", "module", "namespace", "type", "var"]

/-- The words that open a scope of its own. -/
def scopeKeywords : List Text :=
  ["namespace", "module", "global"]

/-- The bracket depth behind a lexeme of a skipped statement; nothing where it ends the statement. -/
def depthBehind? (depth : Nat) (lexeme : Lexeme) : Option Nat :=
  if opens lexeme then some (depth + 1)
  else if closes lexeme then some (depth - 1)
  else if lexeme = .punct ";" ∧ depth = 0 then none
  else some depth

/-- A new statement begins at the next token, although the skipped one has no end mark. -/
def resumesAt (inScope : Bool) (depth : Nat) (tokens : List Token) : Bool :=
  onNewLine tokens && identAt tokens 0 &&
    ((depth == 0 && oneOfAt tokens 0 statementKeywords) ||
      (depth != 0 && !inScope && (declarationAhead? tokens).isSome))

/-- The tokens behind a skipped statement that has begun. -/
def skipFrom (inScope : Bool) : Nat → List Token → List Token
  | _, [] => []
  | depth, token :: rest =>
    if resumesAt inScope depth (token :: rest) then token :: rest
    else
      match depthBehind? depth token.lexeme with
      | none => rest
      | some depth' => skipFrom inScope depth' rest

/-- The text of the token behind the modifiers opens a scope of its own. -/
def opensScope (tokens : List Token) : Bool :=
  (lexemeAt? tokens (modifierCount tokens)).any fun lexeme => scopeKeywords.contains lexeme.text

/-- The tokens behind a skipped statement. -/
def skipStatement (tokens : List Token) : List Token :=
  match tokens with
  | [] => []
  | token :: rest =>
    match depthBehind? 0 token.lexeme with
    | none => rest
    | some depth => skipFrom (opensScope tokens) depth rest

namespace Parse

/-- An entry of the list of types that an interface extends. -/
def heritageEntry (type : TypeReader) : Parse Heritage := do
  let expression ← entityName
  let arguments ← typeArguments type
  return { expression, arguments }

/-- The list of types that an interface extends. -/
def heritage (type : TypeReader) : Parse (List Heritage) := do
  if ← eatWord "extends" then chain "," (heritageEntry type) else return []

/-- An interface behind its modifiers. -/
def interfaceDeclaration
    (type : TypeReader) (docs : Option Documentation) : Parse Interface := do
  skip 1
  let name ← ident
  let parameters ← typeParameters type
  let bases ← heritage type
  expect "\x7b"
  let found ← members type
  return { name, members := found, heritage := bases, parameters, docs }

/-- A type alias behind its modifiers. -/
def aliasDeclaration (type : TypeReader) (docs : Option Documentation) : Parse Alias := do
  skip 1
  let name ← ident
  let parameters ← typeParameters type
  expect "="
  let aliased ← type true
  let _ ← eat ";"
  return { name, type := aliased, parameters, docs }

/-- A statement. -/
def statement (type : TypeReader) : Parse Statement := do
  let tokens ← get
  let docs := documentation tokens
  match declarationAhead? tokens with
  | some (.interface, modifiers) => do
    skip modifiers
    let declaration ← interfaceDeclaration type docs
    return .interface declaration
  | some (.alias, modifiers) => do
    skip modifiers
    let declaration ← aliasDeclaration type docs
    return .alias declaration
  | none => do
    set (skipStatement tokens)
    return .other (nameAt? tokens 0)

/-- The statements up to the end. -/
def statementsWithin (type : TypeReader) : Nat → Parse (List Statement)
  | 0 => return []
  | steps + 1 => do
    let tokens ← get
    if tokens.isEmpty then return []
    else if ← eat ";" then statementsWithin type steps
    else
      let first ← statement type
      let more ← statementsWithin type steps
      return first :: more

end Parse

/-- The statements that a list of tokens spells. -/
def Statement.listOfTokens (tokens : List Token) : Except ParseFailure (List Statement) := do
  let depth := tokens.length + 1
  let (statements, _) ← Parse.statementsWithin (Parse.typeWithin depth) depth tokens
  return statements

/-- The source file with a name and a text. -/
def SourceFile.ofText (name text : String) : Except SourceError SourceFile := do
  let stream ← TokenStream.ofText text
  match Statement.listOfTokens stream.tokens with
  | .ok statements => return { name, statements }
  | .error failure => throw (failure.located stream.ending)

end EntityDiagram.Declaration
