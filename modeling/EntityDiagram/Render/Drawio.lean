import EntityDiagram.Layout.Grid
import EntityDiagram.Layout.Layered
import EntityDiagram.Text.Blank
import EntityDiagram.Text.Markup

/-!
# Draw.io

A diagram as a Draw.io document. The document is first a list of cells, a container for every
entity, a row for every attribute and an edge for every relationship, and only then text.

Cells are numbered from two on, every container followed by its rows, then the edges. An edge with an
end that is no entity uses up its number but is left out. All rows have the same place in their
container, where the drawing program stacks them.

The numbers of a document are written one after the other; the first one that cannot be written ends
the document.
-/

namespace EntityDiagram.Render

open Layout (Box DrawingEngine LayoutFault Metrics Placement)
open Model (Attribute AttributeType Cardinality Diagram Entity KeyRole Relationship)
open Number (Measure NumberFault)

/-- How a Draw.io document is laid out and what it shows. -/
structure DrawioOptions where
  entityWidth : Measure := .whole 200
  rowHeight : Measure := .whole 26
  horizontalSpacing : Measure := .whole 80
  verticalSpacing : Measure := .whole 80
  entitiesPerRow : Measure := .whole 3
  showKeyTypes : Bool := true
  /-- `grid` or `layered`; any other text means the grid. -/
  layout : String := "grid"
  /-- The text to give as the time of modification, instead of the current time. -/
  modified : Option Text := none
  deriving DecidableEq, Repr

namespace Drawio

/-- The layouts of a document. -/
def layouts : List String :=
  ["grid", "layered"]

/-- The sizes that the options give. -/
def metricsOf (options : DrawioOptions) : Metrics Measure :=
  { entityWidth := options.entityWidth
    rowHeight := options.rowHeight
    horizontalSpacing := options.horizontalSpacing
    verticalSpacing := options.verticalSpacing }

/-- The boxes of a diagram. Layers are computed by an engine. -/
def placementOf (engine : DrawingEngine) (options : DrawioOptions) (diagram : Diagram) :
    Except LayoutFault (Placement Measure) :=
  if options.layout = "layered" then Layout.layeredPlacement engine (metricsOf options) diagram
  else Layout.gridPlacement (metricsOf options) options.entitiesPerRow diagram.entities

/-- The type of an attribute: its name, brackets behind an array, and a question mark behind an
optional type. -/
def typeText (type : AttributeType) : Text :=
  type.name ++ (if type.isArray then "[]" else "" : Text) ++
    (if type.isOptional then "?" else "" : Text)

/-- The text of an attribute's row. -/
def rowText (options : DrawioOptions) (field : Attribute) : Text :=
  let text := field.name ++ ": " ++ typeText field.type
  match if options.showKeyTypes then field.key.bind fun role => Text.nonempty? role.mark
      else none with
  | some mark => "[" ++ mark ++ "] " ++ text
  | none => text

/-- A cell of a document. -/
inductive Cell where
  | container (id : Nat) (name : Text) (box : Box Measure)
  | row (id : Nat) (parent : Nat) (text : Text) (isPrimary : Bool)
  | edge (id : Nat) (label : Text) (cardinality : Cardinality) (source : Nat) (target : Nat)
  deriving Repr

/-- The number of a cell. -/
def Cell.id : Cell → Nat
  | container id _ _ => id
  | row id _ _ _ => id
  | edge id _ _ _ _ => id

/-- The number of the first cell. -/
def firstId : Nat := 2

/-- How many cells an entity has. -/
def cellCount (entity : Entity) : Nat :=
  entity.attributes.length + 1

/-- The rows of a container, numbered from a number on. -/
def rowsFrom (options : DrawioOptions) (parent : Nat) : Nat → List Attribute → List Cell
  | _, [] => []
  | id, field :: rest =>
    .row id parent (rowText options field) (field.key == some .primary) ::
      rowsFrom options parent (id + 1) rest

/-- The box of a name; the names in a document have one. -/
def boxOf (placement : Placement Measure) (name : Text) : Box Measure :=
  (placement.box? name).getD ⟨.whole 0, .whole 0, .whole 0, .whole 0⟩

/-- The containers and rows of entities, numbered from a number on. -/
def entityCellsFrom (options : DrawioOptions) (placement : Placement Measure) :
    Nat → List Entity → List Cell
  | _, [] => []
  | id, entity :: rest =>
    .container id entity.name (boxOf placement entity.name) ::
      rowsFrom options id (id + 1) entity.attributes ++
      entityCellsFrom options placement (id + cellCount entity) rest

/-- The names of entities with the numbers of their containers. -/
def containersFrom : Nat → List Entity → List (Text × Nat)
  | _, [] => []
  | id, entity :: rest => (entity.name, id) :: containersFrom (id + cellCount entity) rest

/-- The number of the last container with a name. -/
def containerOf? (containers : List (Text × Nat)) (name : Text) : Option Nat :=
  (containers.reverse.find? fun entry => entry.1 == name).map Prod.snd

/-- The edge of a relationship, if both its ends are entities. -/
def edge? (containers : List (Text × Nat)) (id : Nat) (link : Relationship) : Option Cell := do
  let source ← containerOf? containers link.source
  let target ← containerOf? containers link.target
  return .edge id link.label link.cardinality source target

/-- The edges of relationships, numbered from a number on. -/
def edgeCellsFrom (containers : List (Text × Nat)) : Nat → List Relationship → List Cell
  | _, [] => []
  | id, link :: rest =>
    (edge? containers id link).toList ++ edgeCellsFrom containers (id + 1) rest

/-- The cells of a diagram. -/
def cells (options : DrawioOptions) (placement : Placement Measure) (diagram : Diagram) :
    List Cell :=
  let edgeStart := (diagram.entities.map cellCount).foldl (· + ·) firstId
  entityCellsFrom options placement firstId diagram.entities ++
    edgeCellsFrom (containersFrom firstId diagram.entities) edgeStart diagram.relationships

/-- The arrow at the source of an edge, by how the text of the cardinality starts. -/
def startArrow (cardinality : String) : String :=
  if cardinality.startsWith "one-to" then "none"
  else if cardinality.startsWith "zero-or-one" then "oval"
  else if cardinality.startsWith "many" then "ERmany"
  else "none"

/-- The arrow at the target of an edge, by how the text of the cardinality ends. -/
def endArrow (cardinality : String) : String :=
  if cardinality.endsWith "to-one" then "ERone"
  else if cardinality.endsWith "to-zero-or-one" then "ERoneToMany"
  else if cardinality.endsWith "to-many" || cardinality.endsWith "to-zero-or-more" then "ERmany"
  else "ERone"

/-- The style of a container. -/
def containerStyle : String :=
  "swimlane;fontStyle=1;childLayout=stackLayout;horizontal=1;startSize=" ++
    toString Layout.headerHeight ++
    ";horizontalStack=0;resizeParent=1;resizeParentMax=0;resizeLast=0;collapsible=0;" ++
    "marginBottom=0;fillColor=#dae8fc;strokeColor=#6c8ebf;"

/-- The style of a row; primary keys stand out. -/
def rowStyle (isPrimary : Bool) : String :=
  let stroke := if isPrimary then "#d6b656" else "#6c8ebf"
  let fill := if isPrimary then "#fff2cc" else "#ffffff"
  "text;strokeColor=" ++ stroke ++ ";fillColor=" ++ fill ++ ";align=left;" ++
    "verticalAlign=middle;spacingLeft=4;spacingRight=4;overflow=hidden;" ++
    "portConstraint=eastwest;rotatable=0;fontFamily=monospace;fontSize=11;"

/-- The style of an edge. -/
def edgeStyle (cardinality : Cardinality) : String :=
  "edgeStyle=orthogonalEdgeStyle;rounded=1;orthogonalLoop=1;" ++
    "jettySize=auto;html=1;exitX=1;exitY=0.5;exitDx=0;exitDy=0;" ++
    "entryX=0;entryY=0.5;entryDx=0;entryDy=0;" ++
    "startArrow=" ++ startArrow cardinality.text ++ ";startFill=1;endArrow=" ++
    endArrow cardinality.text ++ ";endFill=1;" ++
    "strokeColor=#666666;fontColor=#333333;fontSize=10;"

/-- The height at which every row stands in its container. -/
def rowTop : Nat := 30

/-- An attribute with a value that needs no escaping. -/
def plainAttribute (name : String) (value : Text) : Text :=
  " " ++ name ++ "=\"" ++ value ++ "\""

/-- An attribute with any text as its value. -/
def textAttribute (name : String) (value : Text) : Text :=
  plainAttribute name (Text.escapeMarkup value)

/-- A cell with the attributes of its start tag and of its geometry. -/
def element (attributes geometry : Text) : Text :=
  "      <mxCell" ++ attributes ++ ">\n        <mxGeometry" ++ geometry ++
    plainAttribute "as" "geometry" ++ " />\n      </mxCell>"

/-- The text of a cell. -/
def cellText (options : DrawioOptions) : Cell → Text
  | .container id name box =>
    element
      (plainAttribute "id" (toString id) ++ textAttribute "value" name ++
        plainAttribute "style" containerStyle ++ plainAttribute "vertex" "1" ++
        plainAttribute "parent" "1")
      (plainAttribute "x" box.x.plainText ++ plainAttribute "y" box.y.plainText ++
        plainAttribute "width" box.width.plainText ++
        plainAttribute "height" box.height.plainText)
  | .row id parent text isPrimary =>
    element
      (plainAttribute "id" (toString id) ++ textAttribute "value" text ++
        plainAttribute "style" (rowStyle isPrimary) ++ plainAttribute "vertex" "1" ++
        plainAttribute "parent" (toString parent))
      (plainAttribute "y" (toString rowTop) ++
        plainAttribute "width" options.entityWidth.text ++
        plainAttribute "height" options.rowHeight.text)
  | .edge id label cardinality source target =>
    element
      (plainAttribute "id" (toString id) ++ textAttribute "value" label ++
        plainAttribute "style" (edgeStyle cardinality) ++ plainAttribute "edge" "1" ++
        plainAttribute "parent" "1" ++ plainAttribute "source" (toString source) ++
        plainAttribute "target" (toString target))
      (plainAttribute "relative" "1")

/-- The two cells that every document starts with. -/
def rootCells : List Text :=
  ["      <mxCell id=\"0\" />", "      <mxCell id=\"1\" parent=\"0\" />"]

/-- The time of modification as an attribute's value: the text of the options, or the current time,
which needs no escaping. -/
def modifiedValue (options : DrawioOptions) (now : String) : Text :=
  match options.modified.bind Text.nonempty? with
  | some text => Text.escapeMarkup text
  | none => now

/-- A document around the texts of its cells. -/
def document (modified cells : Text) : Text :=
  Text.unlines
    ["<?xml version=\"1.0\" encoding=\"UTF-8\"?>",
      "<mxfile host=\"app.diagrams.net\" modified=\"" ++ modified ++ "\" type=\"device\">",
      "  <diagram name=\"ER Diagram\" id=\"er-diagram\">",
      "    <mxGraphModel dx=\"1000\" dy=\"600\" grid=\"1\" gridSize=\"10\" guides=\"1\" " ++
        "tooltips=\"1\" connect=\"1\" arrows=\"1\" fold=\"1\" page=\"1\" pageScale=\"1\" " ++
        "pageWidth=\"850\" pageHeight=\"1100\" math=\"0\" shadow=\"0\">",
      "      <root>",
      cells,
      "      </root>",
      "    </mxGraphModel>",
      "  </diagram>",
      "</mxfile>"]

/-- The document of a diagram whose boxes are given. -/
def renderPlaced
    (options : DrawioOptions) (now : String) (placement : Placement Measure)
    (diagram : Diagram) : Text :=
  document (modifiedValue options now)
    (Text.unlines (rootCells ++ (cells options placement diagram).map (cellText options)))

/-- Why the sizes of a row cannot be written, if they cannot. -/
def rowFault? (options : DrawioOptions) : Option NumberFault :=
  [options.entityWidth, options.rowHeight].findSome? Measure.textFault?

/-- Why the container of an entity and its rows cannot be written, if they cannot. -/
def entityFault? (options : DrawioOptions) (placement : Placement Measure) (entity : Entity) :
    Option LayoutFault :=
  match placement.box? entity.name with
  | none => some (.unplaced entity.name)
  | some box =>
    (box.fault?.or (if entity.attributes.isEmpty then none else rowFault? options)).map .number

/-- The document of a diagram whose boxes are given, if all its numbers can be written. -/
def renderBoxed
    (options : DrawioOptions) (now : String) (placement : Placement Measure)
    (diagram : Diagram) : Except LayoutFault Text :=
  match diagram.entities.findSome? (entityFault? options placement) with
  | some fault => .error fault
  | none => .ok (renderPlaced options now placement diagram)

/-- The document of a diagram. -/
def render
    (engine : DrawingEngine) (options : DrawioOptions) (now : String) (diagram : Diagram) :
    Except LayoutFault Text := do
  let placement ← placementOf engine options diagram
  renderBoxed options now placement diagram

end Drawio

end EntityDiagram.Render
