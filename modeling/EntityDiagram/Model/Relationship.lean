import EntityDiagram.Model.Entity

/-!
# Relationships

Relationships are derived once all entities are known, by three rules: an attribute whose type names
an entity refers to it; a foreign key whose type is an entity's name followed by `Id` refers to that
entity, unless the first rule applies; and an entity refers to every entity that it extends. Of
several relationships with the same ends and label the first one counts.
-/

namespace EntityDiagram.Model

/-- How many instances take part on either side of a relationship. -/
inductive Cardinality where
  | oneToOne
  | oneToMany
  | manyToOne
  | manyToMany
  | zeroOrOneToOne
  | zeroOrOneToMany
  | oneToZeroOrOne
  | oneToZeroOrMore
  /-- Any other text, in a diagram that was not read from declarations. -/
  | other (text : String)
  deriving DecidableEq, Repr

namespace Cardinality

/-- The cardinalities that have a meaning, with their texts. -/
def texts : List (Cardinality × String) :=
  [(oneToOne, "one-to-one"), (oneToMany, "one-to-many"), (manyToOne, "many-to-one"),
    (manyToMany, "many-to-many"), (zeroOrOneToOne, "zero-or-one-to-one"),
    (zeroOrOneToMany, "zero-or-one-to-many"), (oneToZeroOrOne, "one-to-zero-or-one"),
    (oneToZeroOrMore, "one-to-zero-or-more")]

/-- The text of a cardinality. -/
def text : Cardinality → String
  | oneToOne => "one-to-one"
  | oneToMany => "one-to-many"
  | manyToOne => "many-to-one"
  | manyToMany => "many-to-many"
  | zeroOrOneToOne => "zero-or-one-to-one"
  | zeroOrOneToMany => "zero-or-one-to-many"
  | oneToZeroOrOne => "one-to-zero-or-one"
  | oneToZeroOrMore => "one-to-zero-or-more"
  | other text => text

/-- The cardinality with a text. -/
def ofText (text : String) : Cardinality :=
  match texts.find? fun entry => entry.2 == text with
  | some (cardinality, _) => cardinality
  | none => other text

/-- The cardinality of a reference. -/
def ofReference (isArray isOptional : Bool) : Cardinality :=
  match isArray, isOptional with
  | true, true => oneToZeroOrMore
  | true, false => oneToMany
  | false, true => oneToZeroOrOne
  | false, false => oneToOne

end Cardinality

/-- A directed connection between two entities, which are given by name. -/
structure Relationship where
  source : Text
  target : Text
  cardinality : Cardinality
  /-- The attribute that refers, or `extends`. -/
  label : Text
  /-- The reference is not optional. -/
  isIdentifying : Bool
  deriving DecidableEq, Repr

namespace Relationship

/-- What tells relationships apart. -/
def key (relationship : Relationship) : Text × Text × Text :=
  (relationship.source, relationship.target, relationship.label)

/-- The relationships whose keys are not in a list, the first one of every key. -/
def distinctFrom (seen : List (Text × Text × Text)) : List Relationship → List Relationship
  | [] => []
  | first :: rest =>
    if seen.contains first.key then distinctFrom seen rest
    else first :: distinctFrom (first.key :: seen) rest

/-- The first relationship of every key. -/
def distinct (relationships : List Relationship) : List Relationship :=
  distinctFrom [] relationships

/-- The entity that the type of an attribute refers to. -/
def directTarget? (names : List Text) (type : AttributeType) : Option Text :=
  if type.isReference then
    type.target.filter fun name => !name.isEmpty && names.contains name
  else none

/-- The entity that the type of a foreign key names in front of its final `Id`. -/
def keyTarget? (names : List Text) (type : AttributeType) : Option Text :=
  let typeName := (type.target.bind Text.nonempty?).getD type.name
  (KeyRole.stem? typeName).filter names.contains

/-- The relationship that an attribute gives rise to. -/
def ofAttribute? (names : List Text) (entity : Text) (field : Attribute) :
    Option Relationship :=
  let type := field.type
  match directTarget? names type with
  | some target => some
    { source := entity
      target
      cardinality := .ofReference type.isArray type.isOptional
      label := field.name
      isIdentifying := !type.isOptional }
  | none =>
    if field.key = some .foreign then
      (keyTarget? names type).map fun target =>
        { source := entity
          target
          cardinality := .ofReference false type.isOptional
          label := field.name
          isIdentifying := !type.isOptional }
    else none

/-- The relationship between an entity and one that it extends. -/
def ofParent? (names : List Text) (entity parent : Text) : Option Relationship :=
  if names.contains parent then some
    { source := entity
      target := parent
      cardinality := .oneToOne
      label := "extends"
      isIdentifying := true }
  else none

/-- All that an entity gives rise to: attributes first, then parents. -/
def ofEntity (names : List Text) (entity : Entity) : List Relationship :=
  entity.attributes.filterMap (ofAttribute? names entity.name) ++
    (entity.parents.getD []).filterMap (ofParent? names entity.name)

/-- The relationships between entities. -/
def derive (entities : List Entity) : List Relationship :=
  distinct (entities.flatMap (ofEntity (entities.map Entity.name)))

end Relationship

end EntityDiagram.Model
