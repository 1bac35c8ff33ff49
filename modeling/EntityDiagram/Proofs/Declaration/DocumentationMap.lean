import EntityDiagram.Declaration.SourceFile

/-!
# Changing the documentation of a tree

The documentation of a declaration hangs on the declaration itself and on the members of its types.
`mapDocs` changes all of it and nothing else. With a function that forgets, it leaves the tree
without any documentation; with the identity, it leaves the tree alone.
-/

namespace EntityDiagram.Declaration

/-- A change of documentation. -/
abbrev DocsMap := Option Documentation → Option Documentation

mutual

/-- A type with the documentation of its members changed. -/
def TypeExpr.mapDocs (f : DocsMap) : TypeExpr → TypeExpr
  | .keyword name => .keyword name
  | .reference name arguments => .reference name (TypeExpr.mapDocsAll f arguments)
  | .array element => .array (element.mapDocs f)
  | .union members => .union (TypeExpr.mapDocsAll f members)
  | .intersection members => .intersection (TypeExpr.mapDocsAll f members)
  | .literal value => .literal value
  | .template text => .template text
  | .object members => .object (Member.mapDocsAll f members)
  | .mapped parameter keys value =>
    .mapped parameter (TypeExpr.mapDocs? f keys) (TypeExpr.mapDocs? f value)
  | .tuple elements => .tuple (TypeExpr.mapDocsAll f elements)
  | .function parameters result isConstructor =>
    .function (Parameter.mapDocsAll f parameters) (TypeExpr.mapDocs? f result) isConstructor
  | .parenthesized inner => .parenthesized (inner.mapDocs f)
  | .operator name operand => .operator name (operand.mapDocs f)
  | .query expression => .query expression
  | .indexed object index => .indexed (object.mapDocs f) (index.mapDocs f)
  | .conditional check bound whenTrue whenFalse =>
    .conditional (check.mapDocs f) (bound.mapDocs f) (whenTrue.mapDocs f) (whenFalse.mapDocs f)

def TypeExpr.mapDocs? (f : DocsMap) : Option TypeExpr → Option TypeExpr
  | none => none
  | some type => some (type.mapDocs f)

def TypeExpr.mapDocsAll (f : DocsMap) : List TypeExpr → List TypeExpr
  | [] => []
  | type :: rest => type.mapDocs f :: TypeExpr.mapDocsAll f rest

def Parameter.mapDocs (f : DocsMap) : Parameter → Parameter
  | .mk name type isOptional isRest => .mk name (TypeExpr.mapDocs? f type) isOptional isRest

def Parameter.mapDocsAll (f : DocsMap) : List Parameter → List Parameter
  | [] => []
  | parameter :: rest => parameter.mapDocs f :: Parameter.mapDocsAll f rest

/-- A member with its own documentation changed, and that of the members of its types. -/
def Member.mapDocs (f : DocsMap) : Member → Member
  | .property name nameKind type isOptional isReadonly docs =>
    .property name nameKind (TypeExpr.mapDocs? f type) isOptional isReadonly (f docs)
  | .method name nameKind parameters result isOptional docs =>
    .method name nameKind (Parameter.mapDocsAll f parameters) (TypeExpr.mapDocs? f result)
      isOptional (f docs)
  | .index parameter type isReadonly =>
    .index (parameter.mapDocs f) (TypeExpr.mapDocs? f type) isReadonly
  | .call parameters result isConstructor =>
    .call (Parameter.mapDocsAll f parameters) (TypeExpr.mapDocs? f result) isConstructor

def Member.mapDocsAll (f : DocsMap) : List Member → List Member
  | [] => []
  | member :: rest => member.mapDocs f :: Member.mapDocsAll f rest

end

@[simp]
theorem TypeExpr.mapDocs?_eq
    (f : DocsMap) (type : Option TypeExpr) :
    TypeExpr.mapDocs? f type = type.map (TypeExpr.mapDocs f) := by
  cases type <;> rfl

@[simp]
theorem TypeExpr.mapDocsAll_eq
    (f : DocsMap) (types : List TypeExpr) :
    TypeExpr.mapDocsAll f types = types.map (TypeExpr.mapDocs f) := by
  induction types with
  | nil => rfl
  | cons type rest ih => rw [TypeExpr.mapDocsAll, ih, List.map_cons]

@[simp]
theorem Parameter.mapDocsAll_eq
    (f : DocsMap) (parameters : List Parameter) :
    Parameter.mapDocsAll f parameters = parameters.map (Parameter.mapDocs f) := by
  induction parameters with
  | nil => rfl
  | cons parameter rest ih => rw [Parameter.mapDocsAll, ih, List.map_cons]

@[simp]
theorem Member.mapDocsAll_eq
    (f : DocsMap) (members : List Member) :
    Member.mapDocsAll f members = members.map (Member.mapDocs f) := by
  induction members with
  | nil => rfl
  | cons member rest ih => rw [Member.mapDocsAll, ih, List.map_cons]

mutual

theorem TypeExpr.mapDocs_id :
    (type : TypeExpr) → type.mapDocs id = type
  | .keyword _ | .literal _ | .template _ | .query _ => rfl
  | .reference _ arguments => congrArg _ (TypeExpr.mapDocsAll_id arguments)
  | .array element => congrArg _ element.mapDocs_id
  | .union members => congrArg _ (TypeExpr.mapDocsAll_id members)
  | .intersection members => congrArg _ (TypeExpr.mapDocsAll_id members)
  | .object members => congrArg _ (Member.mapDocsAll_id members)
  | .mapped _ keys value => by
    rw [TypeExpr.mapDocs, TypeExpr.mapDocs?_id keys, TypeExpr.mapDocs?_id value]
  | .tuple elements => congrArg _ (TypeExpr.mapDocsAll_id elements)
  | .function parameters result _ => by
    rw [TypeExpr.mapDocs, Parameter.mapDocsAll_id parameters, TypeExpr.mapDocs?_id result]
  | .parenthesized inner => congrArg _ inner.mapDocs_id
  | .operator _ operand => congrArg _ operand.mapDocs_id
  | .indexed object index => by rw [TypeExpr.mapDocs, object.mapDocs_id, index.mapDocs_id]
  | .conditional check bound whenTrue whenFalse => by
    rw [TypeExpr.mapDocs, check.mapDocs_id, bound.mapDocs_id, whenTrue.mapDocs_id,
      whenFalse.mapDocs_id]

theorem TypeExpr.mapDocs?_id :
    (type : Option TypeExpr) → TypeExpr.mapDocs? id type = type
  | none => rfl
  | some type => congrArg some type.mapDocs_id

theorem TypeExpr.mapDocsAll_id :
    (types : List TypeExpr) → TypeExpr.mapDocsAll id types = types
  | [] => rfl
  | type :: rest => by rw [TypeExpr.mapDocsAll, type.mapDocs_id, TypeExpr.mapDocsAll_id rest]

theorem Parameter.mapDocs_id :
    (parameter : Parameter) → parameter.mapDocs id = parameter
  | .mk _ type _ _ => by rw [Parameter.mapDocs, TypeExpr.mapDocs?_id type]

theorem Parameter.mapDocsAll_id :
    (parameters : List Parameter) → Parameter.mapDocsAll id parameters = parameters
  | [] => rfl
  | parameter :: rest => by
    rw [Parameter.mapDocsAll, parameter.mapDocs_id, Parameter.mapDocsAll_id rest]

theorem Member.mapDocs_id :
    (member : Member) → member.mapDocs id = member
  | .property _ _ type _ _ _ => by rw [Member.mapDocs, TypeExpr.mapDocs?_id type, id]
  | .method _ _ parameters result _ _ => by
    rw [Member.mapDocs, Parameter.mapDocsAll_id parameters, TypeExpr.mapDocs?_id result, id]
  | .index parameter type _ => by
    rw [Member.mapDocs, parameter.mapDocs_id, TypeExpr.mapDocs?_id type]
  | .call parameters result _ => by
    rw [Member.mapDocs, Parameter.mapDocsAll_id parameters, TypeExpr.mapDocs?_id result]

theorem Member.mapDocsAll_id :
    (members : List Member) → Member.mapDocsAll id members = members
  | [] => rfl
  | member :: rest => by rw [Member.mapDocsAll, member.mapDocs_id, Member.mapDocsAll_id rest]

end

def TypeParameter.mapDocs (f : DocsMap) (parameter : TypeParameter) : TypeParameter :=
  { parameter with
    bound := parameter.bound.map (TypeExpr.mapDocs f)
    default := parameter.default.map (TypeExpr.mapDocs f) }

def Heritage.mapDocs (f : DocsMap) (heritage : Heritage) : Heritage :=
  { heritage with arguments := heritage.arguments.map (TypeExpr.mapDocs f) }

def Interface.mapDocs (f : DocsMap) (declaration : Interface) : Interface :=
  { declaration with
    members := declaration.members.map (Member.mapDocs f)
    heritage := declaration.heritage.map (Heritage.mapDocs f)
    parameters := declaration.parameters.map (TypeParameter.mapDocs f)
    docs := f declaration.docs }

def Alias.mapDocs (f : DocsMap) (declaration : Alias) : Alias :=
  { declaration with
    type := declaration.type.mapDocs f
    parameters := declaration.parameters.map (TypeParameter.mapDocs f)
    docs := f declaration.docs }

/-- A statement with all its documentation changed. -/
def Statement.mapDocs (f : DocsMap) : Statement → Statement
  | .interface declaration => .interface (declaration.mapDocs f)
  | .alias declaration => .alias (declaration.mapDocs f)
  | .other keyword => .other keyword

theorem map_eq_self
    {α : Type} {f : α → α} (h : ∀ x, f x = x) (items : List α) :
    items.map f = items := by
  simp [funext h, List.map_id']

theorem TypeParameter.mapDocs_id
    (parameter : TypeParameter) :
    parameter.mapDocs id = parameter := by
  have hoption : ∀ type : Option TypeExpr, type.map (TypeExpr.mapDocs id) = type := fun type => by
    rw [← TypeExpr.mapDocs?_eq, TypeExpr.mapDocs?_id]
  simp only [TypeParameter.mapDocs, hoption]

theorem Statement.mapDocs_id
    (statement : Statement) :
    statement.mapDocs id = statement := by
  have hparameters := map_eq_self TypeParameter.mapDocs_id
  cases statement with
  | interface declaration =>
    have hheritage : ∀ entry : Heritage, entry.mapDocs id = entry := fun entry => by
      rw [Heritage.mapDocs, map_eq_self TypeExpr.mapDocs_id]
    simp only [Statement.mapDocs, Interface.mapDocs, map_eq_self Member.mapDocs_id,
      map_eq_self hheritage, hparameters, id]
  | «alias» declaration =>
    simp only [Statement.mapDocs, Alias.mapDocs, TypeExpr.mapDocs_id, hparameters, id]
  | other keyword => rfl

end EntityDiagram.Declaration
