import EntityDiagram.Model.AttributeType

/-!
# Resolved types are coherent

The fields of an attribute type restrict each other: a reference has its own name as its target, a
literal belongs to a primitive type of its kind, a union is named after its members and is nothing else,
and what is neither of these is unknown. Every resolved type is coherent in this sense, and so is every
type inside its arguments and alternatives, whatever tree it was resolved from. An array and an optional
type are copies of other types and take over what holds of these.
-/

namespace EntityDiagram.Model

open Declaration (Literal TypeExpr)

/-- The name of the primitive type that a literal is a value of. -/
inductive IsKindOf : Text → Literal → Prop
  | text (value : Text) : IsKindOf "string" (.text value)
  | truth (value : Bool) : IsKindOf "boolean" (.truth value)
  | integer (value : Int) : IsKindOf "number" (.integer value)
  | real (value : Number.Binary64) : IsKindOf "number" (.real value)

namespace AttributeType

/-- The fields of the type fit together. -/
structure IsCoherent (type : AttributeType) : Prop where
  reference : type.isReference = true ↔ type.target.isSome = true
  target : ∀ name ∈ type.target, name = type.name
  primitive : type.isPrimitive = true → type.name ∈ primitiveNames ∧ type.isReference = false
  literal : ∀ value ∈ type.literal, type.isPrimitive = true ∧ IsKindOf type.name value
  arguments : type.arguments ≠ some []
  union : ∀ members ∈ type.alternatives, type.isReference = false ∧ type.isPrimitive = false ∧
    type.arguments = none ∧ type.literal = none ∧
    type.name = Text.intercalate " | " (members.map AttributeType.name)
  unknown : type.isReference = false → type.isPrimitive = false → type.alternatives = none →
    type.name = "unknown" ∧ type.arguments = none ∧ type.literal = none

/-- The type itself, and all types inside its arguments and alternatives. -/
inductive HasPart : AttributeType → AttributeType → Prop
  | self (type : AttributeType) : HasPart type type
  | argument {type inner part : AttributeType} {types : List AttributeType}
      (htypes : type.arguments = some types) (hinner : inner ∈ types) (h : inner.HasPart part) :
    HasPart type part
  | alternative {type inner part : AttributeType} {types : List AttributeType}
      (htypes : type.alternatives = some types) (hinner : inner ∈ types) (h : inner.HasPart part) :
    HasPart type part

/-- The type is coherent at every depth. -/
def IsWellFormed (type : AttributeType) : Prop :=
  ∀ part, type.HasPart part → part.IsCoherent

/-! ## Coherent at every depth -/

theorem IsWellFormed.mk
    {type : AttributeType} (hself : type.IsCoherent)
    (harguments : ∀ types ∈ type.arguments, ∀ inner ∈ types, inner.IsWellFormed)
    (halternatives : ∀ types ∈ type.alternatives, ∀ inner ∈ types, inner.IsWellFormed) :
    type.IsWellFormed := by
  intro part hpart
  cases hpart with
  | self => exact hself
  | argument htypes hinner h => exact harguments _ htypes _ hinner part h
  | alternative htypes hinner h => exact halternatives _ htypes _ hinner part h

/-- A type without arguments and alternatives has no other part. -/
theorem IsCoherent.isWellFormed
    {type : AttributeType} (h : type.IsCoherent) (harguments : type.arguments = none)
    (halternatives : type.alternatives = none) :
    type.IsWellFormed := by
  refine .mk h ?_ ?_
  · rw [harguments]
    exact nofun
  · rw [halternatives]
    exact nofun

/-- The marks of an array and of an optional type are not restricted by the other fields. -/
theorem IsWellFormed.marked
    {type : AttributeType} (h : type.IsWellFormed) (isArray isOptional : Bool) :
    IsWellFormed { type with isArray, isOptional } := by
  obtain ⟨reference, target, primitive, literal, arguments, union, unknown⟩ := h type (.self type)
  refine .mk ⟨reference, target, primitive, literal, arguments, union, unknown⟩ ?_ ?_
  · intro types htypes inner hinner part hpart
    exact h part (.argument htypes hinner hpart)
  · intro types htypes inner hinner part hpart
    exact h part (.alternative htypes hinner hpart)

/-! ## The kinds of resolved types -/

theorem isWellFormed_unknown :
    unknown.IsWellFormed := by
  refine IsCoherent.isWellFormed ?_ rfl rfl
  constructor <;> simp [unknown]

theorem isWellFormed_primitive
    {name : Text} (h : name ∈ primitiveNames) :
    (primitive name).IsWellFormed := by
  refine IsCoherent.isWellFormed ?_ rfl rfl
  constructor <;> simp [primitive, h]

theorem isWellFormed_ofKeyword
    (name : Text) :
    (ofKeyword name).IsWellFormed := by
  rw [ofKeyword]
  split
  · rename_i hprimitive
    exact isWellFormed_primitive (List.contains_iff_mem.mp hprimitive)
  · exact isWellFormed_unknown

theorem isWellFormed_ofLiteral
    (value : Option Literal) :
    (ofLiteral value).IsWellFormed := by
  cases value with
  | none => exact isWellFormed_unknown
  | some value =>
    have hkind : IsKindOf (literalName value) value := by
      cases value with
      | text value => exact .text value
      | truth value => exact .truth value
      | integer value => exact .integer value
      | real value => exact .real value
    have hname : literalName value ∈ primitiveNames := by
      cases value <;> simp [literalName, primitiveNames]
    refine IsCoherent.isWellFormed ?_ rfl rfl
    constructor <;> simp [ofLiteral, primitive, hkind, hname]

theorem isWellFormed_named
    (name : Text) {arguments : List AttributeType}
    (h : ∀ argument ∈ arguments, argument.IsWellFormed) :
    (named name arguments).IsWellFormed := by
  have hsome : ∀ types ∈ someArguments arguments, types = arguments ∧ types ≠ [] := by
    intro types htypes
    rw [someArguments] at htypes
    split at htypes
    · cases htypes
    · rename_i hne
      obtain rfl := Option.some.inj htypes
      exact ⟨rfl, fun hnil => hne (List.isEmpty_iff.mpr hnil)⟩
  refine .mk ?_ ?_ (by simp [named])
  · have hnone : someArguments arguments ≠ some [] := fun hnil => (hsome [] hnil).2 rfl
    by_cases hprimitive : isPrimitiveName name = true
    · have hname : name ∈ primitiveNames := List.contains_iff_mem.mp hprimitive
      constructor <;> simp [named, hprimitive, hname, hnone]
    · constructor <;> simp [named, hprimitive, hnone]
  · intro types htypes
    rw [(hsome types htypes).1]
    exact h

theorem isWellFormed_ofReference
    (name : Text) {arguments : List AttributeType}
    (h : ∀ argument ∈ arguments, argument.IsWellFormed) :
    (ofReference name arguments).IsWellFormed := by
  unfold ofReference
  split
  · rename_i element rest
    split
    · exact (h element List.mem_cons_self).marked true element.isOptional
    · exact isWellFormed_named name h
  · exact isWellFormed_named name h

theorem isWellFormed_ofUnion
    {members : List AttributeType} (h : ∀ member ∈ members, member.IsWellFormed) :
    (ofUnion members).IsWellFormed := by
  obtain ⟨single, hsingle, isOptional, hunion⟩ | ⟨isOptional, hunion⟩ := ofUnion_cases members
  · rw [hunion]
    exact (h single hsingle).marked single.isArray isOptional
  · rw [hunion]
    refine .mk ?_ nofun ?_
    · constructor <;> simp
    · intro types htypes
      obtain rfl := Option.some.inj htypes
      exact h

mutual

theorem isWellFormed_resolve :
    (type : TypeExpr) → (resolve type).IsWellFormed
  | .keyword name => isWellFormed_ofKeyword name
  | .reference name arguments => isWellFormed_ofReference name (isWellFormed_resolveAll arguments)
  | .array element => (isWellFormed_resolve element).marked true (resolve element).isOptional
  | .union members => isWellFormed_ofUnion (isWellFormed_resolveAll members)
  | .literal value => isWellFormed_ofLiteral value
  | .intersection _ | .template _ | .object _ | .mapped .. | .tuple _ | .function .. |
    .parenthesized _ | .operator .. | .query _ | .indexed .. | .conditional .. =>
    isWellFormed_unknown

theorem isWellFormed_resolveAll :
    (types : List TypeExpr) → ∀ type ∈ resolveAll types, type.IsWellFormed
  | [] => List.forall_mem_nil _
  | type :: rest =>
    List.forall_mem_cons.mpr ⟨isWellFormed_resolve type, isWellFormed_resolveAll rest⟩

end

/-- Whatever annotation there is, and where there is none, the resolved type is coherent at every
depth. -/
theorem isWellFormed_of_annotation
    (type : Option TypeExpr) :
    (resolve? type).IsWellFormed := by
  cases type with
  | none => exact isWellFormed_unknown
  | some type => exact isWellFormed_resolve type

end AttributeType

end EntityDiagram.Model
