import EntityDiagram.Render.Mermaid

/-!
# D2

A diagram as D2 text: the direction, a block or a line for every entity, and a line for every
relationship. Relationships carry no marks; their labels name the attributes.
-/

namespace EntityDiagram.Render

/-- What D2 text shows. The direction and the shape are texts of the notation. -/
structure D2Options where
  direction : String := "right"
  shape : String := "sql_table"
  showProperties : Bool := true
  showConstraints : Bool := true
  deriving DecidableEq, Repr

namespace D2

open Model (Attribute AttributeType Diagram Entity KeyRole Relationship)

/-- The directions of the notation. -/
def directions : List String :=
  ["right", "down", "left", "up"]

/-- The shapes that entities may have. -/
def shapes : List String :=
  ["sql_table", "class"]

/-- The name of an attribute, between quotes where it is no identifier. -/
def quoteName (name : Text) : Text :=
  if Mermaid.isIdentifier name.toList then name else "\"" ++ name ++ "\""

mutual

/-- The type of an attribute: arguments between angle brackets, brackets behind an array, and a
question mark behind an optional type. -/
def typeText (type : AttributeType) : Text :=
  match type with
  | { name, isArray, isOptional, arguments, .. } =>
    name ++ argumentsText arguments ++ (if isArray then "[]" else "" : Text) ++
      (if isOptional then "?" else "" : Text)

/-- The arguments of a type, if it has any. -/
def argumentsText : Option (List AttributeType) → Text
  | none => ""
  | some [] => ""
  | some (first :: rest) => "<" ++ typeText first ++ furtherText rest ++ ">"

/-- Further arguments, each behind a comma. -/
def furtherText : List AttributeType → Text
  | [] => ""
  | type :: rest => ", " ++ typeText type ++ furtherText rest

end

/-- The constraint of a key. -/
def constraint? : KeyRole → Option String
  | .primary => some "primary_key"
  | .foreign => some "foreign_key"
  | .unique => some "unique"
  | .other _ => none

/-- The line of an attribute. -/
def attributeLine (options : D2Options) (field : Attribute) : Text :=
  let constraint : Text :=
    match if options.showConstraints then field.key.bind constraint? else none with
    | some text => " \x7bconstraint: " ++ text ++ "\x7d"
    | none => ""
  "  " ++ quoteName field.name ++ ": " ++ typeText field.type ++ constraint

/-- The lines of an entity with its attributes. -/
def entityLines (options : D2Options) (entity : Entity) : List Text :=
  (entity.name ++ ": \x7b") :: ("  shape: " ++ options.shape) ::
    entity.attributes.map (attributeLine options) ++ [("\x7d" : Text)]

/-- The line of a relationship. -/
def relationshipLine (link : Relationship) : Text :=
  let label : Text := if link.label.isEmpty then "" else ": " ++ link.label
  link.source ++ " -> " ++ link.target ++ label

/-- The lines of a diagram. -/
def diagramLines (options : D2Options) (diagram : Diagram) : List Text :=
  let entities : List Text :=
    if options.showProperties then
      diagram.entities.flatMap fun entity => entityLines options entity ++ [("" : Text)]
    else diagram.entities.map Entity.name ++ [("" : Text)]
  ("direction: " ++ options.direction : Text) :: "" :: entities ++
    diagram.relationships.map relationshipLine

/-- The text of a diagram, without white space at its two ends. -/
def render (options : D2Options) (diagram : Diagram) : Text :=
  Text.trim (Text.unlines (diagramLines options diagram))

end D2

end EntityDiagram.Render
