import EntityDiagram.Declaration.Parse.Signature

/-!
# Members

The members between the braces of an interface or an object type. The words `readonly`, `get`, `set`
and `new` are modifiers only where a name or a parameter list follows; otherwise they are names.
-/

namespace EntityDiagram.Declaration

open Source (Token)

namespace Parse

/-- The documentation in front of the next token. -/
def documentation (tokens : List Token) : Option Documentation :=
  tokens.head?.bind fun token => Documentation.ofBlocks? (token.lead.docs.map .ofString)

/-- The name of a member and how it is written. A computed name is kept as text. -/
def memberName : Parse (Text × NameKind) := do
  match lexemeAt? (← get) 0 with
  | some (.ident name) => do
    skip 1
    return (name, .identifier)
  | some (.string text) => do
    skip 1
    return (text, .string)
  | some (.number spelling) => do
    skip 1
    return (spelling, .numeric)
  | some (.punct "[") => do
    let text ← bracketedText
    return (text, .computed)
  | _ => fail .expectedMemberName

/-- A call or construct signature. -/
def callSignature (type : TypeReader) (isConstructor : Bool) : Parse Member := do
  let _ ← typeParameters type
  let params ← parameters type
  let result ← resultAnnotation type
  return .call params result isConstructor

/-- An index signature. -/
def indexSignature (type : TypeReader) (isReadonly : Bool) : Parse Member := do
  expect "["
  let name ← ident
  expect ":"
  let key ← type true
  expect "]"
  let _ ← eat "?"
  let value ← annotation type
  return .index (.mk name (some key) false false) value isReadonly

/-- A property or a method. -/
def namedMember
    (type : TypeReader) (isReadonly : Bool) (docs : Option Documentation) : Parse Member := do
  let (name, nameKind) ← memberName
  let isOptional ← eat "?"
  let tokens ← get
  if markAt tokens 0 "(" || markAt tokens 0 "<" then
    let _ ← typeParameters type
    let params ← parameters type
    let result ← resultAnnotation type
    return .method name nameKind params result isOptional docs
  else
    let annotated ← annotation type
    return .property name nameKind annotated isOptional isReadonly docs

/-- A member without its separator. -/
def member (type : TypeReader) : Parse Member := do
  let start ← get
  let docs := documentation start
  let isReadonly := wordAt start 0 "readonly" && memberNameAt start 1
  if isReadonly then
    skip 1
  let afterReadonly ← get
  if oneOfAt afterReadonly 0 ["get", "set"] && memberNameAt afterReadonly 1 then
    skip 1
  let tokens ← get
  if markAt tokens 0 "(" || markAt tokens 0 "<" then callSignature type false
  else if wordAt tokens 0 "new" && (markAt tokens 1 "(" || markAt tokens 1 "<") then
    skip 1
    callSignature type true
  else if markAt tokens 0 "[" && identAt tokens 1 && markAt tokens 2 ":" then
    indexSignature type isReadonly
  else namedMember type isReadonly docs

/-- Members up to the closing brace, which is left in place. -/
def membersWithin (type : TypeReader) : Nat → Parse (List Member)
  | 0 => return []
  | steps + 1 => do
    let tokens ← get
    if markAt tokens 0 "\x7d" then return []
    else if tokens.isEmpty then fail fun _ => .unclosed "\x7d"
    else if markAt tokens 0 ";" || markAt tokens 0 "," then
      skip 1
      membersWithin type steps
    else
      let first ← member type
      let more ← membersWithin type steps
      return first :: more

/-- Members and the brace that closes them. -/
def members (type : TypeReader) : Parse (List Member) := do
  let tokens ← get
  let found ← membersWithin type (tokens.length + 1)
  expect "\x7d"
  return found

end Parse

end EntityDiagram.Declaration
