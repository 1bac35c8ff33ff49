import EntityDiagram.Declaration.Documentation
import EntityDiagram.Declaration.Literal

/-!
# Type expressions

The trees of type annotations, together with the parameters and members that occur inside them. Only
a few kinds of type mean something to an entity diagram; the others are kept so that a type that is
not understood can be shown as unknown instead of being refused.
-/

namespace EntityDiagram.Declaration

/-- How the name of a member is written. -/
inductive NameKind where
  | identifier
  | string
  | numeric
  | computed
  deriving DecidableEq, Repr, Inhabited

mutual

/-- A type annotation. -/
inductive TypeExpr where
  /-- A built-in type such as `string`. -/
  | keyword (name : String)
  /-- A plain or dotted name, with its type arguments. -/
  | reference (name : String) (arguments : List TypeExpr)
  /-- An array written with brackets. -/
  | array (element : TypeExpr)
  | union (members : List TypeExpr)
  | intersection (members : List TypeExpr)
  /-- A literal type; the value may be missing in a tree that was not read from a text. -/
  | literal (value : Option Literal)
  | template (text : String)
  /-- An object type with its members. -/
  | object (members : List Member)
  /-- An object type whose keys range over a type. -/
  | mapped (parameter : String) (keys : Option TypeExpr) (value : Option TypeExpr)
  | tuple (elements : List TypeExpr)
  | function (parameters : List Parameter) (result : Option TypeExpr) (isConstructor : Bool)
  | parenthesized (inner : TypeExpr)
  /-- `keyof`, `unique`, `readonly` or `infer` before a type. -/
  | operator (name : String) (operand : TypeExpr)
  /-- The type of an expression or of an import. -/
  | query (expression : String)
  /-- The type of a member, looked up by its key. -/
  | indexed (object : TypeExpr) (index : TypeExpr)
  | conditional (check : TypeExpr) (bound : TypeExpr) (whenTrue : TypeExpr) (whenFalse : TypeExpr)

/-- A parameter of a function, method or index signature. -/
inductive Parameter where
  | mk (name : String) (type : Option TypeExpr) (isOptional : Bool) (isRest : Bool)

/-- A member of an interface or of an object type. -/
inductive Member where
  | property (name : Text) (nameKind : NameKind) (type : Option TypeExpr)
      (isOptional : Bool) (isReadonly : Bool) (docs : Option Documentation)
  | method (name : Text) (nameKind : NameKind) (parameters : List Parameter)
      (result : Option TypeExpr) (isOptional : Bool) (docs : Option Documentation)
  | index (parameter : Parameter) (type : Option TypeExpr) (isReadonly : Bool)
  | call (parameters : List Parameter) (result : Option TypeExpr) (isConstructor : Bool)

end

deriving instance Repr for TypeExpr, Parameter, Member

instance : Inhabited TypeExpr := ⟨.keyword "unknown"⟩

end EntityDiagram.Declaration
