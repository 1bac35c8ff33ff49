import EntityDiagram.Declaration.TypeExpr

/-!
# Attribute types

The canonical description of an attribute's type, and how a type annotation is resolved to it.

Built-in types are primitive, names are references, arrays in either spelling set a flag, and a
union in which all members but one are `null` or `undefined` is that one member, made optional. Any
other union keeps all its members. Every other kind of type is unknown.
-/

namespace EntityDiagram.Model

open Declaration (Literal TypeExpr)

/-- What is known about the type of an attribute. -/
structure AttributeType where
  /-- The base name, or the names of a union's members with bars between them. -/
  name : Text
  isArray : Bool := false
  isOptional : Bool := false
  /-- The type is a name that may belong to an entity. -/
  isReference : Bool := false
  target : Option Text := none
  isPrimitive : Bool := false
  /-- The arguments of a generic type. -/
  arguments : Option (List AttributeType) := none
  /-- The members of a union that is more than one optional type. -/
  alternatives : Option (List AttributeType) := none
  literal : Option Literal := none
  deriving Repr, Inhabited

/-- The names of the primitive types. -/
def primitiveNames : List Text :=
  ["string", "number", "boolean", "null", "undefined", "void", "never", "unknown", "any", "bigint",
    "symbol", "object"]

/-- Whether a name is that of a primitive type. -/
def isPrimitiveName (name : Text) : Bool :=
  primitiveNames.contains name

/-- The names whose presence in a union makes it optional. -/
def isNullishName (name : Text) : Bool :=
  name == "null" || name == "undefined"

namespace AttributeType

/-- The type of what is not understood. -/
def unknown : AttributeType := { name := "unknown" }

/-- A primitive type. -/
def primitive (name : Text) : AttributeType := { name, isPrimitive := true }

/-- A list as a type's arguments; an empty list counts as none. -/
def someArguments (types : List AttributeType) : Option (List AttributeType) :=
  if types.isEmpty then none else some types

/-- A built-in type. -/
def ofKeyword (name : Text) : AttributeType :=
  if isPrimitiveName name then primitive name else unknown

/-- A name that is no array, with its resolved arguments. -/
def named (name : Text) (arguments : List AttributeType) : AttributeType :=
  { name
    arguments := someArguments arguments
    isReference := !isPrimitiveName name
    target := if isPrimitiveName name then none else some name
    isPrimitive := isPrimitiveName name }

/-- A name with its resolved arguments. -/
def ofReference (name : Text) (arguments : List AttributeType) : AttributeType :=
  match arguments with
  | element :: _ =>
    if name = "Array" then { element with isArray := true } else named name arguments
  | [] => named name []

/-- A union of resolved members. -/
def ofUnion (members : List AttributeType) : AttributeType :=
  let solid := members.filter fun member => !isNullishName member.name
  let isOptional := solid.length != members.length
  match solid with
  | [single] => { single with isOptional }
  | _ =>
    { name := Text.intercalate " | " (members.map AttributeType.name)
      isOptional
      alternatives := some members }

/-- The name of the primitive type that a literal belongs to. -/
def literalName : Literal → Text
  | .text _ => "string"
  | .truth _ => "boolean"
  | .integer _ | .real _ => "number"

/-- A literal type. -/
def ofLiteral : Option Literal → AttributeType
  | none => unknown
  | some value => { primitive (literalName value) with literal := some value }

mutual

/-- The type that an annotation stands for. -/
def resolve : TypeExpr → AttributeType
  | .keyword name => ofKeyword name
  | .reference name arguments => ofReference name (resolveAll arguments)
  | .array element => { resolve element with isArray := true }
  | .union members => ofUnion (resolveAll members)
  | .literal value => ofLiteral value
  | _ => unknown

/-- The types that annotations stand for. -/
def resolveAll : List TypeExpr → List AttributeType
  | [] => []
  | type :: rest => resolve type :: resolveAll rest

end

/-- The type of an attribute that may have no annotation. -/
def resolve? : Option TypeExpr → AttributeType
  | none => unknown
  | some type => resolve type

/-- A short text for a type: its name, the names of its arguments, and a mark for arrays. -/
def shortText (type : AttributeType) : Text :=
  let arguments : Text :=
    match type.arguments with
    | none | some [] => ""
    | some types => "<" ++ Text.intercalate ", " (types.map AttributeType.name) ++ ">"
  type.name ++ arguments ++ (if type.isArray then "[]" else "" : Text)

theorem resolveAll_eq_map
    (types : List TypeExpr) :
    resolveAll types = types.map resolve := by
  induction types with
  | nil => rfl
  | cons type rest ih => simp [resolveAll, ih]

/-- The members of a union whose names count. -/
def solid (members : List AttributeType) : List AttributeType :=
  members.filter fun member => !isNullishName member.name

theorem ofUnion_single
    {members : List AttributeType} {single : AttributeType} (h : solid members = [single]) :
    ofUnion members = { single with isOptional := 1 != members.length } := by
  rw [solid] at h
  rw [ofUnion]
  simp only [h]
  rfl

theorem ofUnion_several
    {members : List AttributeType} (h : (solid members).length ≠ 1) :
    ofUnion members = {
      name := Text.intercalate " | " (members.map AttributeType.name)
      isOptional := (solid members).length != members.length
      alternatives := some members } := by
  unfold ofUnion
  simp only
  split
  · rename_i single hsingle
    rw [solid, hsingle] at h
    exact absurd rfl h
  · rfl

/-- A union is resolved to one of its members, but for optionality, or is named after all of them. -/
theorem ofUnion_cases
    (members : List AttributeType) :
    (∃ single ∈ members, ∃ isOptional, ofUnion members = { single with isOptional }) ∨
      ∃ isOptional, ofUnion members = {
        name := Text.intercalate " | " (members.map AttributeType.name)
        isOptional
        alternatives := some members } := by
  by_cases h : (solid members).length = 1
  · obtain ⟨single, hsolid⟩ := List.length_eq_one_iff.mp h
    have hmem : single ∈ solid members := hsolid ▸ List.mem_singleton_self single
    exact .inl ⟨single, (List.mem_filter.mp hmem).1, _, ofUnion_single hsolid⟩
  · exact .inr ⟨_, ofUnion_several h⟩

end AttributeType

end EntityDiagram.Model
