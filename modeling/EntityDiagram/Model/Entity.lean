import EntityDiagram.Declaration.SourceFile
import EntityDiagram.Model.AttributeType
import EntityDiagram.Model.KeyRole

/-!
# Entities

An entity is a named record: an interface, or an alias of an object type. Its attributes are the
properties whose key is a name or a string; methods, index and call signatures and properties with
numeric or computed keys are left out, and so are aliases of any other type.

A property's own question mark decides whether the attribute is optional, whatever its type says.
-/

namespace EntityDiagram.Model

open Declaration (Alias Documentation Interface Member NameKind SourceFile Statement)

/-- A field of an entity. -/
structure Attribute where
  name : Text
  type : AttributeType
  key : Option KeyRole := none
  docs : Option Documentation := none
  deriving Repr

/-- A type parameter, its bound and default as short texts. -/
structure TypeParameter where
  name : Text
  bound : Option Text := none
  default : Option Text := none
  deriving DecidableEq, Repr

/-- What an entity was declared as. -/
inductive EntityKind where
  | interface
  | alias
  deriving DecidableEq, Repr

/-- A named record. -/
structure Entity where
  name : Text
  kind : EntityKind := .interface
  attributes : List Attribute := []
  /-- The names of the entities that it extends. -/
  parents : Option (List Text) := none
  parameters : Option (List TypeParameter) := none
  docs : Option Documentation := none
  /-- The file that it was declared in. -/
  file : Option String := none
  deriving Repr

/-- A list, or nothing where it is empty. -/
def someList {α : Type} (items : List α) : Option (List α) :=
  if items.isEmpty then none else some items

/-- The attribute that a member declares. -/
def Attribute.ofMember? : Member → Option Attribute
  | .property name nameKind type isOptional _ docs =>
    match nameKind with
    | .identifier | .string =>
      let docs := docs.bind Documentation.tidy?
      some {
        name
        type := { AttributeType.resolve? type with isOptional }
        key := KeyRole.infer? name docs
        docs }
    | _ => none
  | _ => none

/-- A type parameter of a declaration, shown as text. -/
def TypeParameter.ofDeclared (parameter : Declaration.TypeParameter) : TypeParameter :=
  { name := parameter.name
    bound := parameter.bound.map fun type => (AttributeType.resolve type).shortText
    default := parameter.default.map fun type => (AttributeType.resolve type).shortText }

namespace Entity

/-- The entity that an interface declares. Only plain names count as parents. -/
def ofInterface (declaration : Interface) (file : String) : Entity :=
  { name := declaration.name
    kind := .interface
    attributes := declaration.members.filterMap Attribute.ofMember?
    parents := someList ((declaration.heritage.filter Declaration.Heritage.isPlain).map fun heritage =>
      heritage.expression)
    parameters := someList (declaration.parameters.map TypeParameter.ofDeclared)
    docs := declaration.docs.bind Documentation.tidy?
    file := some file }

/-- The entity that an alias declares, if it is an alias of an object type. -/
def ofAlias? (declaration : Alias) (file : String) : Option Entity :=
  match declaration.type with
  | .object members => some
    { name := declaration.name
      kind := .alias
      attributes := members.filterMap Attribute.ofMember?
      parameters := someList (declaration.parameters.map TypeParameter.ofDeclared)
      docs := declaration.docs.bind Documentation.tidy?
      file := some file }
  | _ => none

/-- The entity that a statement declares. -/
def ofStatement? (file : String) : Statement → Option Entity
  | .interface declaration => some (ofInterface declaration file)
  | .alias declaration => ofAlias? declaration file
  | .other _ => none

/-- The entities that a file declares, in order. -/
def listOfFile (file : SourceFile) : List Entity :=
  file.statements.filterMap (ofStatement? file.name)

end Entity

/-- Something that was declared and left out. -/
inductive Omission where
  | property (nameKind : NameKind) (name : Text)
  | alias (name : Text)
  deriving DecidableEq, Repr

namespace Omission

/-- The property that a member declares, if it is left out. -/
def ofMember? : Member → Option Omission
  | .property name nameKind _ _ _ _ =>
    match nameKind with
    | .identifier | .string => none
    | _ => some (.property nameKind name)
  | _ => none

/-- What a statement declares and is left out, in order. -/
def ofStatement : Statement → List Omission
  | .interface declaration => declaration.members.filterMap ofMember?
  | .alias declaration =>
    match declaration.type with
    | .object members => members.filterMap ofMember?
    | _ => [.alias declaration.name]
  | .other _ => []

/-- What a file declares and is left out, in order. -/
def listOfFile (file : SourceFile) : List Omission :=
  file.statements.flatMap ofStatement

end Omission

end EntityDiagram.Model
