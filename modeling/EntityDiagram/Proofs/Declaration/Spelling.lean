import EntityDiagram.Declaration.SourceFile
import EntityDiagram.Declaration.Parse.Types
import EntityDiagram.Proofs.Source.NumeralSpelling

/-!
# Spellings of declarations

The lexemes that a declaration is written with: the second side of the laws about reading. Brackets
stand only where the tree has a node for them, so not every tree comes back from its spelling. Those
that do are singled out by `WellFormed`: they respect the precedence of the type operators, give no
reserved word to a reference, have no result that is spelled like a type predicate, and hold nothing
that has no spelling, such as a documentation block.

A type whose last part is a full type, such as a function type with its result, takes in whatever
follows it. Such a type may only stand where nothing that it could take in comes behind it.
-/

namespace EntityDiagram.Declaration

open Source (Lexeme)

/-- Spellings with a mark between them. -/
def separated (mark : String) (parts : List (List Lexeme)) : List Lexeme :=
  [Lexeme.punct mark].intercalate parts

/-- A lexeme that is written where a flag is set. -/
def lexemeIf (flag : Bool) (lexeme : Lexeme) : List Lexeme :=
  if flag then [lexeme] else []

/-- The parts of a dotted name. -/
def nameParts (name : String) : List String :=
  (name.toList.splitOn '.').map String.ofList

/-- A plain or dotted name. -/
def nameLexemes (name : String) : List Lexeme :=
  separated "." ((nameParts name).map fun part => [.ident part])

/-- A list between angle brackets, or nothing where it is empty. -/
def angled (parts : List (List Lexeme)) : List Lexeme :=
  if parts.isEmpty then [] else .punct "<" :: separated "," parts ++ [.punct ">"]

/-- A list of parameters between parentheses. -/
def parenthesizedList (parts : List (List Lexeme)) : List Lexeme :=
  .punct "(" :: separated "," parts ++ [.punct ")"]

/-- The value of a literal type. Doubles have no spelling here. -/
def Literal.lexemes : Literal → List Lexeme
  | .text value => [.string value]
  | .truth value => [.ident (if value then "true" else "false")]
  | .integer (.ofNat n) => [.number (Source.Numeral.spellingOf n)]
  | .integer (.negSucc n) => [.punct "-", .number (Source.Numeral.spellingOf (n + 1))]
  | .real _ => []

/-- A name without quotes. -/
def plainKey (name : Text) : String :=
  name.string?.getD ""

@[simp]
theorem plainKey_ofString
    (string : String) :
    plainKey string = string := by
  rw [plainKey, Text.string?_ofString]
  rfl

/-- The key of a member. -/
def keyLexeme (name : Text) : NameKind → Lexeme
  | .string => .string name
  | .numeric => .number (plainKey name)
  | .identifier | .computed => .ident (plainKey name)

/-- Only a name in quotes may hold a surrogate. -/
def IsKey (name : Text) (nameKind : NameKind) : Prop :=
  nameKind ≠ .string → ∃ string : String, name = string

theorem isKey_ofString
    (string : String) (nameKind : NameKind) :
    IsKey string nameKind :=
  fun _ => ⟨string, rfl⟩

mutual

/-- The lexemes that a type is written with. -/
def TypeExpr.lexemes : TypeExpr → List Lexeme
  | .keyword name => [.ident name]
  | .reference name arguments => nameLexemes name ++ angled (TypeExpr.lexemesOfAll arguments)
  | .array element => element.lexemes ++ [.punct "[", .punct "]"]
  | .union members => separated "|" (TypeExpr.lexemesOfAll members)
  | .intersection members => separated "&" (TypeExpr.lexemesOfAll members)
  | .literal value => (value.map Literal.lexemes).getD []
  | .template text => [.template text]
  | .object members => .punct "\x7b" :: Member.lexemesOfAll members ++ [.punct "\x7d"]
  | .mapped parameter keys value =>
    [.punct "\x7b", .punct "[", .ident parameter, .ident "in"] ++ TypeExpr.lexemesOf? [] keys ++
      .punct "]" :: TypeExpr.lexemesOf? [.punct ":"] value ++ [.punct "\x7d"]
  | .tuple elements => .punct "[" :: separated "," (TypeExpr.lexemesOfAll elements) ++ [.punct "]"]
  | .function parameters result isConstructor =>
    lexemeIf isConstructor (.ident "new") ++
      parenthesizedList (Parameter.lexemesOfAll parameters) ++
      .punct "=>" :: TypeExpr.lexemesOf? [] result
  | .parenthesized inner => .punct "(" :: inner.lexemes ++ [.punct ")"]
  | .operator name operand => .ident name :: operand.lexemes
  | .query _ => []
  | .indexed object index => object.lexemes ++ .punct "[" :: index.lexemes ++ [.punct "]"]
  | .conditional check bound whenTrue whenFalse =>
    check.lexemes ++ .ident "extends" :: bound.lexemes ++ .punct "?" :: whenTrue.lexemes ++
      .punct ":" :: whenFalse.lexemes

/-- The lexemes of every type of a list. -/
def TypeExpr.lexemesOfAll : List TypeExpr → List (List Lexeme)
  | [] => []
  | type :: rest => type.lexemes :: TypeExpr.lexemesOfAll rest

/-- The lexemes of a type behind others, or nothing where there is no type. -/
def TypeExpr.lexemesOf? (front : List Lexeme) : Option TypeExpr → List Lexeme
  | none => []
  | some type => front ++ type.lexemes

/-- The lexemes that a parameter is written with. -/
def Parameter.lexemes : Parameter → List Lexeme
  | .mk name type isOptional isRest =>
    lexemeIf isRest (.punct "...") ++ .ident name :: lexemeIf isOptional (.punct "?") ++
      TypeExpr.lexemesOf? [.punct ":"] type

/-- The lexemes of every parameter of a list. -/
def Parameter.lexemesOfAll : List Parameter → List (List Lexeme)
  | [] => []
  | parameter :: rest => parameter.lexemes :: Parameter.lexemesOfAll rest

/-- The lexemes that a member is written with, without a separator. -/
def Member.lexemes : Member → List Lexeme
  | .property name nameKind type isOptional isReadonly _ =>
    lexemeIf isReadonly (.ident "readonly") ++ keyLexeme name nameKind ::
      lexemeIf isOptional (.punct "?") ++ TypeExpr.lexemesOf? [.punct ":"] type
  | .method name nameKind parameters result isOptional _ =>
    keyLexeme name nameKind :: lexemeIf isOptional (.punct "?") ++
      parenthesizedList (Parameter.lexemesOfAll parameters) ++
      TypeExpr.lexemesOf? [.punct ":"] result
  | .index (.mk name key _ _) value isReadonly =>
    lexemeIf isReadonly (.ident "readonly") ++ .punct "[" :: .ident name ::
      TypeExpr.lexemesOf? [.punct ":"] key ++ .punct "]" :: TypeExpr.lexemesOf? [.punct ":"] value
  | .call parameters result isConstructor =>
    lexemeIf isConstructor (.ident "new") ++
      parenthesizedList (Parameter.lexemesOfAll parameters) ++
      TypeExpr.lexemesOf? [.punct ":"] result

/-- The lexemes of members that are closed by semicolons. -/
def Member.lexemesOfAll : List Member → List Lexeme
  | [] => []
  | member :: rest => member.lexemes ++ .punct ";" :: Member.lexemesOfAll rest

end

def TypeParameter.lexemes (parameter : TypeParameter) : List Lexeme :=
  .ident parameter.name :: TypeExpr.lexemesOf? [.ident "extends"] parameter.bound ++
    TypeExpr.lexemesOf? [.punct "="] parameter.default

def Heritage.lexemes (heritage : Heritage) : List Lexeme :=
  nameLexemes heritage.expression ++ angled (TypeExpr.lexemesOfAll heritage.arguments)

/-- The list of types that an interface extends, or nothing where it is empty. -/
def Heritage.lexemesOfAll (entries : List Heritage) : List Lexeme :=
  if entries.isEmpty then []
  else .ident "extends" :: separated "," (entries.map Heritage.lexemes)

/-- An interface behind its modifiers. -/
def Interface.lexemes (declaration : Interface) : List Lexeme :=
  [.ident "interface", .ident declaration.name] ++
    angled (declaration.parameters.map TypeParameter.lexemes) ++
    Heritage.lexemesOfAll declaration.heritage ++
    .punct "\x7b" :: Member.lexemesOfAll declaration.members ++ [.punct "\x7d"]

/-- A type alias behind its modifiers, closed by a semicolon. -/
def Alias.lexemes (declaration : Alias) : List Lexeme :=
  [.ident "type", .ident declaration.name] ++
    angled (declaration.parameters.map TypeParameter.lexemes) ++
    .punct "=" :: declaration.type.lexemes ++ [.punct ";"]

/-- A statement and the modifiers in front of it. -/
structure Declared where
  modifiers : List String := []
  statement : Statement

/-- The lexemes that a declaration is written with. Other statements have no spelling here. -/
def Declared.lexemes (declared : Declared) : List Lexeme :=
  declared.modifiers.map Lexeme.ident ++
    match declared.statement with
    | .interface declaration => declaration.lexemes
    | .alias declaration => declaration.lexemes
    | .other _ => []

/-- How tightly a type binds: the level of the grammar on which it is read. -/
def TypeExpr.tightness : TypeExpr → Nat
  | .conditional .. => 0
  | .union _ => 1
  | .intersection _ => 2
  | .operator .. | .function .. => 3
  | .array _ | .indexed .. => 4
  | _ => 5

mutual

/-- The last part of the type is a full type, which takes in whatever may follow. -/
def TypeExpr.endsOpen : TypeExpr → Bool
  | .conditional .. | .function .. => true
  | .operator _ operand => operand.endsOpen
  | .union members | .intersection members => TypeExpr.lastEndsOpen members
  | _ => false

/-- The last type of a list takes in whatever may follow. -/
def TypeExpr.lastEndsOpen : List TypeExpr → Bool
  | [] => false
  | [last] => last.endsOpen
  | _ :: rest => TypeExpr.lastEndsOpen rest

end

/-- The operators that stand in front of a type. -/
def typeOperators : List String :=
  ["keyof", "unique", "readonly"]

/-- The words that begin another kind of type, wherever they stand. -/
def reservedHeads : List String :=
  ["true", "false", "typeof"]

/-- The words that are no reference when they stand alone. -/
def reservedWords : List String :=
  keywordTypes ++ typeOperators ++ reservedHeads ++ ["new", "infer"]

/-- The name may be that of a reference: no reserved word, no reserved head in front of a dot. -/
def isReferenceName (name : String) : Bool :=
  match nameParts name with
  | [word] => !reservedWords.contains word
  | parts => !(parts.head?.any reservedHeads.contains)

/-- A result type that is spelled like this is read as a type predicate. -/
def startsPredicate : List Lexeme → Bool
  | .ident name :: .ident next :: _ => name == "asserts" || next == "is"
  | _ => false

mutual

/-- The word would become part of the type if it came right behind it, be it on a new line: a lone
result turns into a type predicate, and `abstract` starts a constructor type. -/
def TypeExpr.absorbs (word : String) : TypeExpr → Bool
  | .reference name [] => name == "abstract" && word == "new"
  | .operator _ operand => operand.absorbs word
  | .union members | .intersection members => TypeExpr.lastAbsorbs word members
  | .function _ (some result) _ =>
    startsPredicate (result.lexemes ++ [.ident word]) || result.absorbs word
  | .conditional _ _ _ whenFalse => whenFalse.absorbs word
  | _ => false

/-- The word would become part of the last type of a list. -/
def TypeExpr.lastAbsorbs (word : String) : List TypeExpr → Bool
  | [] => false
  | [last] => last.absorbs word
  | _ :: rest => TypeExpr.lastAbsorbs word rest

end

/-- The word would become part of a type that is the result of a signature. -/
def TypeExpr.resultAbsorbs (word : String) (result : TypeExpr) : Bool :=
  startsPredicate (result.lexemes ++ [.ident word]) || result.absorbs word

/-- The type that a member ends with. -/
def Member.type? : Member → Option TypeExpr
  | .property _ _ type _ _ _ | .method _ _ _ type _ _ | .index _ type _ | .call _ type _ => type

/-- The word would become part of the member if it came right behind it. -/
def Member.absorbs (word : String) : Member → Bool
  | .property _ _ type _ _ _ | .index _ type _ => type.any (TypeExpr.absorbs word)
  | .method _ _ _ result _ _ | .call _ result _ => result.any (TypeExpr.resultAbsorbs word)

mutual

/-- The types that come back from their spelling. -/
inductive TypeExpr.WellFormed : TypeExpr → Prop
  | keyword {name : String} (hname : name ∈ keywordTypes) :
    TypeExpr.WellFormed (.keyword name)
  | reference {name : String} {arguments : List TypeExpr}
      (hname : isReferenceName name = true)
      (harguments : ∀ argument ∈ arguments, argument.WellFormed) :
    TypeExpr.WellFormed (.reference name arguments)
  | array {element : TypeExpr}
      (htight : 4 ≤ element.tightness) (helement : element.WellFormed) :
    TypeExpr.WellFormed (.array element)
  | union {members : List TypeExpr}
      (hlength : 2 ≤ members.length)
      (htight : ∀ member ∈ members, 2 ≤ member.tightness)
      (hclosed : ∀ member ∈ members.dropLast, member.endsOpen = false)
      (hmembers : ∀ member ∈ members, member.WellFormed) :
    TypeExpr.WellFormed (.union members)
  | intersection {members : List TypeExpr}
      (hlength : 2 ≤ members.length)
      (htight : ∀ member ∈ members, 3 ≤ member.tightness)
      (hclosed : ∀ member ∈ members.dropLast, member.endsOpen = false)
      (hmembers : ∀ member ∈ members, member.WellFormed) :
    TypeExpr.WellFormed (.intersection members)
  | text {value : Text} : TypeExpr.WellFormed (.literal (some (.text value)))
  | truth {value : Bool} : TypeExpr.WellFormed (.literal (some (.truth value)))
  | integer {value : Int} : TypeExpr.WellFormed (.literal (some (.integer value)))
  | template {text : String} : TypeExpr.WellFormed (.template text)
  | object {members : List Member} (hmembers : ∀ member ∈ members, member.WellFormed) :
    TypeExpr.WellFormed (.object members)
  | mapped {parameter : String} {keys : TypeExpr} {value : Option TypeExpr}
      (hkeys : keys.WellFormed) (hvalue : ∀ type ∈ value, type.WellFormed) :
    TypeExpr.WellFormed (.mapped parameter (some keys) value)
  | tuple {elements : List TypeExpr} (helements : ∀ element ∈ elements, element.WellFormed) :
    TypeExpr.WellFormed (.tuple elements)
  | function {parameters : List Parameter} {result : TypeExpr} {isConstructor : Bool}
      (hparameters : ∀ parameter ∈ parameters, parameter.WellFormed)
      (hresult : result.WellFormed) (hplain : startsPredicate result.lexemes = false) :
    TypeExpr.WellFormed (.function parameters (some result) isConstructor)
  | parenthesized {inner : TypeExpr} (hinner : inner.WellFormed) :
    TypeExpr.WellFormed (.parenthesized inner)
  | operator {name : String} {operand : TypeExpr}
      (hname : name ∈ typeOperators) (htight : 3 ≤ operand.tightness)
      (hoperand : operand.WellFormed) :
    TypeExpr.WellFormed (.operator name operand)
  | indexed {object index : TypeExpr}
      (htight : 4 ≤ object.tightness) (hobject : object.WellFormed) (hindex : index.WellFormed) :
    TypeExpr.WellFormed (.indexed object index)
  | conditional {check bound whenTrue whenFalse : TypeExpr}
      (hcheckTight : 1 ≤ check.tightness) (hcheckClosed : check.endsOpen = false)
      (hboundTight : 1 ≤ bound.tightness)
      (hcheck : check.WellFormed) (hbound : bound.WellFormed)
      (hwhenTrue : whenTrue.WellFormed) (hwhenFalse : whenFalse.WellFormed) :
    TypeExpr.WellFormed (.conditional check bound whenTrue whenFalse)

/-- The parameters that come back from their spelling. -/
inductive Parameter.WellFormed : Parameter → Prop
  | mk {name : String} {type : Option TypeExpr} {isOptional isRest : Bool}
      (htype : ∀ annotated ∈ type, annotated.WellFormed) :
    Parameter.WellFormed (.mk name type isOptional isRest)

/-- The members that come back from their spelling. A method that is named by the word `new` is
read as a construct signature. -/
inductive Member.WellFormed : Member → Prop
  | property {name : Text} {nameKind : NameKind} {type : Option TypeExpr}
      {isOptional isReadonly : Bool}
      (hkind : nameKind ≠ .computed) (hkey : IsKey name nameKind)
      (htype : ∀ annotated ∈ type, annotated.WellFormed) :
    Member.WellFormed (.property name nameKind type isOptional isReadonly none)
  | method {name : Text} {nameKind : NameKind} {parameters : List Parameter}
      {result : Option TypeExpr} {isOptional : Bool}
      (hkind : nameKind ≠ .computed) (hkey : IsKey name nameKind)
      (hnew : nameKind = .identifier → isOptional = false → name ≠ "new")
      (hparameters : ∀ parameter ∈ parameters, parameter.WellFormed)
      (hresult : ∀ type ∈ result, type.WellFormed)
      (hplain : ∀ type ∈ result, startsPredicate type.lexemes = false) :
    Member.WellFormed (.method name nameKind parameters result isOptional none)
  | index {name : String} {key : TypeExpr} {value : Option TypeExpr} {isReadonly : Bool}
      (hkey : key.WellFormed) (hvalue : ∀ type ∈ value, type.WellFormed) :
    Member.WellFormed (.index (.mk name (some key) false false) value isReadonly)
  | call {parameters : List Parameter} {result : Option TypeExpr} {isConstructor : Bool}
      (hparameters : ∀ parameter ∈ parameters, parameter.WellFormed)
      (hresult : ∀ type ∈ result, type.WellFormed)
      (hplain : ∀ type ∈ result, startsPredicate type.lexemes = false) :
    Member.WellFormed (.call parameters result isConstructor)

end

/-- The words that are taken for modifiers of a type parameter. -/
def varianceWords : List String :=
  ["in", "out", "const"]

structure TypeParameter.WellFormed (parameter : TypeParameter) : Prop where
  name : parameter.name ∉ varianceWords
  bound : ∀ type ∈ parameter.bound, type.WellFormed
  default : ∀ type ∈ parameter.default, type.WellFormed

structure Interface.WellFormed (declaration : Interface) : Prop where
  members : ∀ member ∈ declaration.members, member.WellFormed
  heritage : ∀ entry ∈ declaration.heritage, ∀ type ∈ entry.arguments, type.WellFormed
  parameters : ∀ parameter ∈ declaration.parameters, parameter.WellFormed
  docs : declaration.docs = none

structure Alias.WellFormed (declaration : Alias) : Prop where
  type : declaration.type.WellFormed
  parameters : ∀ parameter ∈ declaration.parameters, parameter.WellFormed
  docs : declaration.docs = none

/-- The declarations that come back from their spelling. -/
inductive Declared.WellFormed : Declared → Prop
  | interface {modifiers : List String} {declaration : Interface}
      (hmodifiers : ∀ modifier ∈ modifiers, modifier ∈ declarationModifiers)
      (hdeclaration : declaration.WellFormed) :
    Declared.WellFormed ⟨modifiers, .interface declaration⟩
  | typeAlias {modifiers : List String} {declaration : Alias}
      (hmodifiers : ∀ modifier ∈ modifiers, modifier ∈ declarationModifiers)
      (hdeclaration : declaration.WellFormed) :
    Declared.WellFormed ⟨modifiers, .alias declaration⟩

end EntityDiagram.Declaration
