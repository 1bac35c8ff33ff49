import EntityDiagram.Declaration.Parse.Basic
import EntityDiagram.Declaration.SourceFile

/-!
# Type parameters, parameters and results

The parts of a signature. Every reader here takes the reader of types as an argument, which also
takes a flag: whether the type may be a conditional one. This keeps the grammar open: types contain
signatures and members, and these contain types again.
-/

namespace EntityDiagram.Declaration

open Source (Token)

/-- Reads a type, which may be a conditional one if the flag is set. -/
abbrev TypeReader := Bool → Parse TypeExpr

namespace Parse

/-- The type behind a colon, if there is one. -/
def annotation (type : TypeReader) : Parse (Option TypeExpr) :=
  behind ":" (type true)

/-- The tokens without the modifiers in front of a type parameter's name. -/
def dropVariance : List Token → List Token
  | [] => []
  | token :: rest =>
    if oneOfAt (token :: rest) 0 ["in", "out", "const"] && identAt rest 0 then dropVariance rest
    else token :: rest

/-- A type parameter with its bound and its default. -/
def typeParameter (type : TypeReader) : Parse TypeParameter := do
  modify dropVariance
  let name ← ident
  let bound ← if ← eatWord "extends" then some <$> type true else pure none
  let default ← behind "=" (type true)
  return { name, bound, default }

/-- The type parameters of a declaration, if it has any. -/
def typeParameters (type : TypeReader) : Parse (List TypeParameter) := do
  if ← eat "<" then commaList ">" (typeParameter type) else return []

/-- The type arguments of a reference, if it has any. -/
def typeArguments (type : TypeReader) : Parse (List TypeExpr) := do
  if ← eat "<" then commaList ">" (type true) else return []

/-- The tokens without the modifiers in front of a parameter's name. -/
def dropAccess : List Token → List Token
  | [] => []
  | token :: rest =>
    if oneOfAt (token :: rest) 0 ["public", "private", "protected", "readonly"] &&
        (identAt rest 0 || markAt rest 0 "\x7b" || markAt rest 0 "[") then
      dropAccess rest
    else token :: rest

/-- The name of a parameter; a pattern is kept as text. -/
def parameterName : Parse String := do
  let tokens ← get
  if markAt tokens 0 "\x7b" || markAt tokens 0 "[" then bracketedText else ident

/-- A parameter. Its default value is left out. -/
def parameter (type : TypeReader) : Parse Parameter := do
  let isRest ← eat "..."
  modify dropAccess
  let name ← parameterName
  let isOptional ← eat "?"
  let annotated ← annotation type
  if ← eat "=" then
    modify (behindDefault 0)
  return .mk name annotated isOptional isRest

/-- Parameters between parentheses. -/
def parameters (type : TypeReader) : Parse (List Parameter) := do
  expect "("
  commaList ")" (parameter type)

/-- A result type. A type predicate counts as a truth value, an assertion as no value. -/
def result (type : TypeReader) : Parse TypeExpr := do
  let tokens ← get
  if wordAt tokens 0 "asserts" && identAt tokens 1 then
    skip 2
    if ← eatWord "is" then
      let _ ← type true
    return .keyword "void"
  else if identAt tokens 0 && wordAt tokens 1 "is" then
    skip 2
    let _ ← type true
    return .keyword "boolean"
  else type true

/-- The result type behind a colon, if there is one. -/
def resultAnnotation (type : TypeReader) : Parse (Option TypeExpr) :=
  behind ":" (result type)

end Parse

end EntityDiagram.Declaration
