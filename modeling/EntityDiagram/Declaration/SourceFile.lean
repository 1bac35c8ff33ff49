import EntityDiagram.Declaration.TypeExpr

/-!
# Source files

A source file is a list of statements. Interfaces and type aliases are kept in full; of any other
statement only the word that it starts with is known.
-/

namespace EntityDiagram.Declaration

/-- A type parameter of a declaration. -/
structure TypeParameter where
  name : String
  bound : Option TypeExpr := none
  default : Option TypeExpr := none
  deriving Repr

/-- One entry of the list of types that an interface extends. -/
structure Heritage where
  /-- A plain or dotted name. -/
  expression : String
  arguments : List TypeExpr := []
  deriving Repr

/-- Whether the entry is a plain name. -/
def Heritage.isPlain (heritage : Heritage) : Bool :=
  !heritage.expression.toList.contains '.'

/-- An interface. -/
structure Interface where
  name : String
  members : List Member := []
  heritage : List Heritage := []
  parameters : List TypeParameter := []
  docs : Option Documentation := none
  deriving Repr

/-- A type alias. -/
structure Alias where
  name : String
  type : TypeExpr
  parameters : List TypeParameter := []
  docs : Option Documentation := none
  deriving Repr

/-- A top-level statement. -/
inductive Statement where
  | interface (declaration : Interface)
  | alias (declaration : Alias)
  /-- Any other statement, with the word that it starts with. -/
  | other (keyword : Option String)
  deriving Repr

/-- A named list of statements. -/
structure SourceFile where
  name : String
  statements : List Statement := []
  deriving Repr

end EntityDiagram.Declaration
