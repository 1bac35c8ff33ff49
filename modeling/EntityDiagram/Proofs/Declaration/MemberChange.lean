import EntityDiagram.Declaration.SourceFile

/-!
# A change of one member

One member, anywhere in a list of source files, gives way to a related one, and everything around it
stays as it is. The member may belong to a declaration or to an object type at any depth of an
annotation, of a type parameter or of the types that an interface extends.
-/

namespace EntityDiagram.Declaration

mutual

/-- One member changes inside a type. -/
inductive TypeExpr.Changes (change : Member → Member → Prop) : TypeExpr → TypeExpr → Prop
  | argument {type type' : TypeExpr} (h : TypeExpr.Changes change type type') (name : String)
      (front back : List TypeExpr) :
    TypeExpr.Changes change (.reference name (front ++ type :: back))
      (.reference name (front ++ type' :: back))
  | element {type type' : TypeExpr} (h : TypeExpr.Changes change type type') :
    TypeExpr.Changes change (.array type) (.array type')
  | alternative {type type' : TypeExpr} (h : TypeExpr.Changes change type type')
      (front back : List TypeExpr) :
    TypeExpr.Changes change (.union (front ++ type :: back)) (.union (front ++ type' :: back))
  | conjunct {type type' : TypeExpr} (h : TypeExpr.Changes change type type')
      (front back : List TypeExpr) :
    TypeExpr.Changes change (.intersection (front ++ type :: back))
      (.intersection (front ++ type' :: back))
  | member {member member' : Member} (h : Member.Changes change member member')
      (front back : List Member) :
    TypeExpr.Changes change (.object (front ++ member :: back)) (.object (front ++ member' :: back))
  | mappedKeys {type type' : TypeExpr} (h : TypeExpr.Changes change type type')
      (parameter : String) (value : Option TypeExpr) :
    TypeExpr.Changes change (.mapped parameter (some type) value)
      (.mapped parameter (some type') value)
  | mappedValue {type type' : TypeExpr} (h : TypeExpr.Changes change type type')
      (parameter : String) (keys : Option TypeExpr) :
    TypeExpr.Changes change (.mapped parameter keys (some type))
      (.mapped parameter keys (some type'))
  | component {type type' : TypeExpr} (h : TypeExpr.Changes change type type')
      (front back : List TypeExpr) :
    TypeExpr.Changes change (.tuple (front ++ type :: back)) (.tuple (front ++ type' :: back))
  | parameter {parameter parameter' : Parameter} (h : Parameter.Changes change parameter parameter')
      (front back : List Parameter) (result : Option TypeExpr) (isConstructor : Bool) :
    TypeExpr.Changes change (.function (front ++ parameter :: back) result isConstructor)
      (.function (front ++ parameter' :: back) result isConstructor)
  | result {type type' : TypeExpr} (h : TypeExpr.Changes change type type')
      (parameters : List Parameter) (isConstructor : Bool) :
    TypeExpr.Changes change (.function parameters (some type) isConstructor)
      (.function parameters (some type') isConstructor)
  | parenthesized {type type' : TypeExpr} (h : TypeExpr.Changes change type type') :
    TypeExpr.Changes change (.parenthesized type) (.parenthesized type')
  | operand {type type' : TypeExpr} (h : TypeExpr.Changes change type type') (name : String) :
    TypeExpr.Changes change (.operator name type) (.operator name type')
  | indexedObject {type type' : TypeExpr} (h : TypeExpr.Changes change type type')
      (index : TypeExpr) :
    TypeExpr.Changes change (.indexed type index) (.indexed type' index)
  | indexedIndex {type type' : TypeExpr} (h : TypeExpr.Changes change type type')
      (object : TypeExpr) :
    TypeExpr.Changes change (.indexed object type) (.indexed object type')
  | check {type type' : TypeExpr} (h : TypeExpr.Changes change type type')
      (bound whenTrue whenFalse : TypeExpr) :
    TypeExpr.Changes change (.conditional type bound whenTrue whenFalse)
      (.conditional type' bound whenTrue whenFalse)
  | bound {type type' : TypeExpr} (h : TypeExpr.Changes change type type')
      (check whenTrue whenFalse : TypeExpr) :
    TypeExpr.Changes change (.conditional check type whenTrue whenFalse)
      (.conditional check type' whenTrue whenFalse)
  | whenTrue {type type' : TypeExpr} (h : TypeExpr.Changes change type type')
      (check bound whenFalse : TypeExpr) :
    TypeExpr.Changes change (.conditional check bound type whenFalse)
      (.conditional check bound type' whenFalse)
  | whenFalse {type type' : TypeExpr} (h : TypeExpr.Changes change type type')
      (check bound whenTrue : TypeExpr) :
    TypeExpr.Changes change (.conditional check bound whenTrue type)
      (.conditional check bound whenTrue type')

/-- One member changes inside the type of a parameter. -/
inductive Parameter.Changes (change : Member → Member → Prop) : Parameter → Parameter → Prop
  | type {type type' : TypeExpr} (h : TypeExpr.Changes change type type') (name : String)
      (isOptional isRest : Bool) :
    Parameter.Changes change (.mk name (some type) isOptional isRest)
      (.mk name (some type') isOptional isRest)

/-- One member changes: the given one itself, or another one inside its types. -/
inductive Member.Changes (change : Member → Member → Prop) : Member → Member → Prop
  | self {member member' : Member} (h : change member member') :
    Member.Changes change member member'
  | annotation {type type' : TypeExpr} (h : TypeExpr.Changes change type type') (name : String)
      (kind : NameKind) (isOptional isReadonly : Bool) (docs : Option Documentation) :
    Member.Changes change (.property name kind (some type) isOptional isReadonly docs)
      (.property name kind (some type') isOptional isReadonly docs)
  | methodParameter {parameter parameter' : Parameter}
      (h : Parameter.Changes change parameter parameter') (name : String) (kind : NameKind)
      (front back : List Parameter) (result : Option TypeExpr) (isOptional : Bool)
      (docs : Option Documentation) :
    Member.Changes change (.method name kind (front ++ parameter :: back) result isOptional docs)
      (.method name kind (front ++ parameter' :: back) result isOptional docs)
  | methodResult {type type' : TypeExpr} (h : TypeExpr.Changes change type type') (name : String)
      (kind : NameKind) (parameters : List Parameter) (isOptional : Bool)
      (docs : Option Documentation) :
    Member.Changes change (.method name kind parameters (some type) isOptional docs)
      (.method name kind parameters (some type') isOptional docs)
  | indexParameter {parameter parameter' : Parameter}
      (h : Parameter.Changes change parameter parameter') (type : Option TypeExpr)
      (isReadonly : Bool) :
    Member.Changes change (.index parameter type isReadonly) (.index parameter' type isReadonly)
  | indexType {type type' : TypeExpr} (h : TypeExpr.Changes change type type')
      (parameter : Parameter) (isReadonly : Bool) :
    Member.Changes change (.index parameter (some type) isReadonly)
      (.index parameter (some type') isReadonly)
  | callParameter {parameter parameter' : Parameter}
      (h : Parameter.Changes change parameter parameter') (front back : List Parameter)
      (result : Option TypeExpr) (isConstructor : Bool) :
    Member.Changes change (.call (front ++ parameter :: back) result isConstructor)
      (.call (front ++ parameter' :: back) result isConstructor)
  | callResult {type type' : TypeExpr} (h : TypeExpr.Changes change type type')
      (parameters : List Parameter) (isConstructor : Bool) :
    Member.Changes change (.call parameters (some type) isConstructor)
      (.call parameters (some type') isConstructor)

end

/-- One member changes inside the bound or the default of a type parameter. -/
inductive TypeParameter.Changes
    (change : Member → Member → Prop) : TypeParameter → TypeParameter → Prop
  | bound {type type' : TypeExpr} (h : type.Changes change type') (parameter : TypeParameter) :
    Changes change { parameter with bound := some type } { parameter with bound := some type' }
  | default {type type' : TypeExpr} (h : type.Changes change type') (parameter : TypeParameter) :
    Changes change { parameter with default := some type } { parameter with default := some type' }

/-- One member changes inside the arguments of a type that an interface extends. -/
inductive Heritage.Changes (change : Member → Member → Prop) : Heritage → Heritage → Prop
  | argument {type type' : TypeExpr} (h : type.Changes change type') (expression : String)
      (front back : List TypeExpr) :
    Changes change ⟨expression, front ++ type :: back⟩ ⟨expression, front ++ type' :: back⟩

/-- One member changes in the declaration with the name, its owner. -/
inductive Statement.Changes
    (change : Member → Member → Prop) (owner : String) : Statement → Statement → Prop
  | interfaceMember {member member' : Member} (h : member.Changes change member')
      (declaration : Interface) (hname : declaration.name = owner) (front back : List Member) :
    Changes change owner (.interface { declaration with members := front ++ member :: back })
      (.interface { declaration with members := front ++ member' :: back })
  | heritage {parent parent' : Heritage} (h : parent.Changes change parent')
      (declaration : Interface) (hname : declaration.name = owner) (front back : List Heritage) :
    Changes change owner (.interface { declaration with heritage := front ++ parent :: back })
      (.interface { declaration with heritage := front ++ parent' :: back })
  | interfaceParameter {parameter parameter' : TypeParameter}
      (h : parameter.Changes change parameter') (declaration : Interface)
      (hname : declaration.name = owner) (front back : List TypeParameter) :
    Changes change owner (.interface { declaration with parameters := front ++ parameter :: back })
      (.interface { declaration with parameters := front ++ parameter' :: back })
  | aliasType {type type' : TypeExpr} (h : type.Changes change type') (declaration : Alias)
      (hname : declaration.name = owner) :
    Changes change owner (.alias { declaration with type }) (.alias { declaration with type := type' })
  | aliasParameter {parameter parameter' : TypeParameter} (h : parameter.Changes change parameter')
      (declaration : Alias) (hname : declaration.name = owner) (front back : List TypeParameter) :
    Changes change owner (.alias { declaration with parameters := front ++ parameter :: back })
      (.alias { declaration with parameters := front ++ parameter' :: back })

/-- One member changes in a list of source files, in a declaration with the name. -/
inductive SourceFile.ListChanges
    (change : Member → Member → Prop) (owner : String) : List SourceFile → List SourceFile → Prop
  | statement {statement statement' : Statement} (h : statement.Changes change owner statement')
      (name : String) (front back : List Statement) (files more : List SourceFile) :
    ListChanges change owner (files ++ ⟨name, front ++ statement :: back⟩ :: more)
      (files ++ ⟨name, front ++ statement' :: back⟩ :: more)

end EntityDiagram.Declaration
