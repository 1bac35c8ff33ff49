import EntityDiagram.Declaration.Parse.Members

/-!
# Types

The grammar of types, from the loosest to the tightest binding: conditional types, unions,
intersections, operators, array and index suffixes, and primary types. The grammar is open in the
reader of nested types; `typeWithin` closes it with a bound on the nesting. A nested type starts at
least one token behind the type around it, so the number of tokens bounds the nesting.

A bracket, an angle bracket or `extends` on a new line does not continue the type before it.
-/

namespace EntityDiagram.Declaration

open Source (Fault SourceError Token TokenStream)

/-- The names of the built-in types. -/
def keywordTypes : List String :=
  ["string", "number", "boolean", "null", "undefined", "void", "never", "unknown", "any", "bigint",
    "symbol", "object", "this"]

namespace Parse

/-- The value of a numeral. -/
def numeral (spelling : String) : Parse Literal :=
  fun tokens =>
    match Literal.ofNumeral spelling with
    | .ok value => .ok (value, tokens)
    | .error fault => .error ⟨fault, tokens⟩

/-- The text of an imported type, from `import` to its last part. Its type arguments are left out. -/
def importText (type : TypeReader) : Parse String := do
  skip 1
  let group ← bracketedText
  let (more, remaining) := dottedParts (← get)
  set remaining
  let _ ← typeArguments type
  return ".".intercalate (("import" ++ group) :: more)

/-- A function or constructor type. -/
def functionType (type : TypeReader) (isConstructor : Bool) : Parse TypeExpr := do
  let _ ← typeParameters type
  let params ← parameters type
  expect "=>"
  let resultType ← result type
  return .function params (some resultType) isConstructor

/-- A sign, where one may stand. -/
def optionalSign : Parse Unit := do
  if ← eat "+" then return ()
  else
    let _ ← eat "-"

/-- A mapped type. -/
def mappedType (type : TypeReader) : Parse TypeExpr := do
  expect "\x7b"
  optionalSign
  let _ ← eatWord "readonly"
  expect "["
  let name ← ident
  skip 1
  let keys ← type true
  if ← eatWord "as" then
    let _ ← type true
  expect "]"
  optionalSign
  let _ ← eat "?"
  let value ← annotation type
  let _ ← eat ";"
  expect "\x7d"
  return .mapped name (some keys) value

/-- An element of a tuple. Its name and its marks are left out. -/
def tupleElement (type : TypeReader) : Parse TypeExpr := do
  let _ ← eat "..."
  let tokens ← get
  if identAt tokens 0 &&
      (markAt tokens 1 ":" || (markAt tokens 1 "?" && markAt tokens 2 ":")) then
    skip 1
    let _ ← eat "?"
    expect ":"
  let element ← type true
  let _ ← eat "?"
  return element

/-- A tuple type. -/
def tupleType (type : TypeReader) : Parse TypeExpr := do
  expect "["
  let elements ← commaList "]" (tupleElement type)
  return .tuple elements

/-- A primary type that starts with a punctuation mark. -/
def markedType (type : TypeReader) (mark : String) : Parse TypeExpr := do
  let tokens ← get
  if mark = "-" then
    match lexemeAt? tokens 1 with
    | some (.number spelling) => do
      skip 2
      let value ← numeral spelling
      return .literal (some value.neg)
    | _ => fail .noType
  else if mark = "(" then
    if functionTypeAhead tokens then functionType type false
    else
      skip 1
      let inner ← type true
      expect ")"
      return .parenthesized inner
  else if mark = "<" then functionType type false
  else if mark = "\x7b" then
    if mappedTypeAhead tokens then mappedType type
    else
      skip 1
      let found ← members type
      return .object found
  else if mark = "[" then tupleType type
  else fail .noType

/-- A primary type that starts with a name. -/
def namedType (type : TypeReader) (name : String) : Parse TypeExpr := do
  let tokens ← get
  if name = "true" ∨ name = "false" then
    skip 1
    return .literal (some (.truth (name = "true")))
  else if name = "new" ∧ (markAt tokens 1 "(" || markAt tokens 1 "<") then
    skip 1
    functionType type true
  else if name = "abstract" ∧ wordAt tokens 1 "new" then
    skip 2
    functionType type true
  else if name = "typeof" then
    skip 1
    let expression ← if wordAt tokens 1 "import" then importText type else entityName
    let _ ← typeArguments type
    return .query expression
  else if name = "import" ∧ markAt tokens 1 "(" then
    let expression ← importText type
    return .query expression
  else if keywordTypes.contains name ∧ markAt tokens 1 "." = false then
    skip 1
    return .keyword name
  else
    let path ← entityName
    let remaining ← get
    let arguments ← if onNewLine remaining then pure [] else typeArguments type
    return .reference path arguments

/-- A type that no operator or suffix belongs to. -/
def primaryType (type : TypeReader) : Parse TypeExpr := do
  match lexemeAt? (← get) 0 with
  | some (.string text) => do
    skip 1
    return .literal (some (.text text))
  | some (.number spelling) => do
    skip 1
    let value ← numeral spelling
    return .literal (some value)
  | some (.template text) => do
    skip 1
    return .template text
  | some (.punct mark) => markedType type mark
  | some (.ident name) => namedType type name
  | _ => fail .noType

/-- A type with the array and index suffixes behind it. -/
def suffixesWithin (type : TypeReader) : Nat → TypeExpr → Parse TypeExpr
  | 0, inner => return inner
  | steps + 1, inner => do
    let tokens ← get
    if markAt tokens 0 "[" && !onNewLine tokens then
      skip 1
      if ← eat "]" then suffixesWithin type steps (.array inner)
      else
        let index ← type true
        expect "]"
        suffixesWithin type steps (.indexed inner index)
    else return inner

/-- A primary type with its suffixes. -/
def suffixedType (type : TypeReader) : Parse TypeExpr := do
  let inner ← primaryType type
  let tokens ← get
  suffixesWithin type (tokens.length + 1) inner

/-- A type variable of a conditional type, or a type with suffixes. -/
def inferredType (type : TypeReader) : Parse TypeExpr := do
  let tokens ← get
  if wordAt tokens 0 "infer" && identAt tokens 1 then
    skip 1
    let name ← ident
    let behindName ← get
    if wordAt behindName 0 "extends" && identAt behindName 1 then
      skip 1
      let _ ← type false
    return .operator "infer" (.reference name [])
  else suffixedType type

/-- The operator in front of a type, if its operand may start behind it. -/
def operatorAhead? (tokens : List Token) : Option String :=
  (nameAt? tokens 0).filter fun name =>
    ["keyof", "unique", "readonly"].contains name && operandAt tokens 1

/-- A type with the operators in front of it. -/
def operatorType (type : TypeReader) : Parse TypeExpr
  | [] => inferredType type []
  | token :: rest =>
    match operatorAhead? (token :: rest) with
    | some name => do
      let (operand, remaining) ← operatorType type rest
      return (.operator name operand, remaining)
    | none => inferredType type (token :: rest)

/-- The only type of a list, or all of them combined. -/
def combined (combine : List TypeExpr → TypeExpr) : List TypeExpr → TypeExpr
  | [single] => single
  | types => combine types

/-- One or more types with `&` between them and possibly in front. -/
def intersectionType (type : TypeReader) : Parse TypeExpr := do
  let _ ← eat "&"
  let types ← chain "&" (operatorType type)
  return combined .intersection types

/-- One or more types with `|` between them and possibly in front. -/
def unionType (type : TypeReader) : Parse TypeExpr := do
  let _ ← eat "|"
  let types ← chain "|" (intersectionType type)
  return combined .union types

/-- A type whose nested types are read by the given reader. -/
def typeFrom (type : TypeReader) : TypeReader := fun conditional => do
  let check ← unionType type
  let tokens ← get
  if conditional && wordAt tokens 0 "extends" && !onNewLine tokens then
    skip 1
    let bound ← type false
    expect "?"
    let whenTrue ← type true
    expect ":"
    let whenFalse ← type true
    return .conditional check bound whenTrue whenFalse
  else return check

/-- A type that is nested to a bounded depth. -/
def typeWithin : Nat → TypeReader
  | 0 => fun _ => fail .noType
  | depth + 1 => typeFrom (typeWithin depth)

end Parse

/-- The type that a list of tokens spells. -/
def TypeExpr.ofTokens (tokens : List Token) : Except ParseFailure TypeExpr := do
  let reader : Parse TypeExpr := do
    let type ← Parse.typeWithin (tokens.length + 1) true
    Parse.expectEnd
    return type
  let (type, _) ← reader tokens
  return type

/-- The type that a text spells. -/
def TypeExpr.ofText (text : String) : Except SourceError TypeExpr := do
  let stream ← TokenStream.ofText text
  match TypeExpr.ofTokens stream.tokens with
  | .ok type => return type
  | .error failure => throw (failure.located stream.ending)

end EntityDiagram.Declaration
