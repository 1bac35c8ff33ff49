import EntityDiagram.Layout.Layered.Graph

/-!
# Layered placement

Relationships point downwards, and the connected components of a diagram stand side by side. An
engine finds the components and gives every name in them a centre; the placement moves each
component to the upper margin and behind the component before it, and rounds the corners of its
boxes to whole numbers, a tie going to the even one.

What the engine does inside a component and where the components go are kept apart: the placement is
a function of any engine. The engine of a drawing may give up on a component; the components in front
of that one have been placed by then.
-/

namespace EntityDiagram.Layout

open Layered (Graph lastHeight)
open Model (Diagram Entity)
open Number (Computed Measure NumberFault Scalar)

/-- The centre of a box. -/
structure Centre (α : Type) where
  x : α
  y : α
  deriving DecidableEq, Repr

/-- The names of a component with their centres. -/
abbrev Component (α : Type) := List (Text × Centre α)

/-- The components of a graph. -/
abbrev Engine (α : Type) := Metrics α → Graph α → List (Component α)

section

variable {α : Type} [Scalar α]

/-- The left edge of a box, as the engine places it. -/
def leftEdge (metrics : Metrics α) (entry : Text × Centre α) : α :=
  entry.2.x - Scalar.half metrics.entityWidth

/-- The right edge of a box, as the engine places it. -/
def rightEdge (metrics : Metrics α) (entry : Text × Centre α) : α :=
  entry.2.x + Scalar.half metrics.entityWidth

/-- The upper edge of a box, as the engine places it. -/
def topEdge (heightOf : Text → α) (entry : Text × Centre α) : α :=
  entry.2.y - Scalar.half (heightOf entry.1)

/-- How far a component reaches to the left, upwards and to the right. -/
structure Extent (α : Type) where
  left : α
  top : α
  right : α

/-- The extent of a component that is not empty. -/
def extentOf
    (metrics : Metrics α) (heightOf : Text → α) (first : Text × Centre α) (rest : Component α) :
    Extent α where
  left := Scalar.smallest (leftEdge metrics first) (rest.map (leftEdge metrics))
  top := Scalar.smallest (topEdge heightOf first) (rest.map (topEdge heightOf))
  right := Scalar.largest (rightEdge metrics first) (rest.map (rightEdge metrics))

/-- The box of a name in a component whose left edge is at an offset. -/
def boxWithin
    (metrics : Metrics α) (heightOf : Text → α) (offset : α) (extent : Extent α)
    (entry : Text × Centre α) : Box α where
  x := Scalar.rounded (leftEdge metrics entry - extent.left + offset)
  y := Scalar.rounded (topEdge heightOf entry - extent.top + Scalar.ofNat margin)
  width := metrics.entityWidth
  height := heightOf entry.1

/-- The offset behind a component whose left edge is at an offset. -/
def offsetBehind (metrics : Metrics α) (offset : α) (extent : Extent α) : α :=
  offset + ((extent.right - extent.left) + metrics.horizontalSpacing)

/-- The boxes of a component whose left edge is at an offset. -/
def boxesWithin
    (metrics : Metrics α) (heightOf : Text → α) (offset : α) (extent : Extent α)
    (component : Component α) : Placement α :=
  component.map fun entry => (entry.1, boxWithin metrics heightOf offset extent entry)

/-- The boxes of components, one behind the other from an offset on. -/
def placeComponents (metrics : Metrics α) (heightOf : Text → α) :
    α → List (Component α) → Placement α
  | _, [] => []
  | offset, [] :: rest => placeComponents metrics heightOf offset rest
  | offset, (first :: more) :: rest =>
    let extent := extentOf metrics heightOf first more
    boxesWithin metrics heightOf offset extent (first :: more) ++
      placeComponents metrics heightOf (offsetBehind metrics offset extent) rest

/-- The offset of the first component. -/
def firstOffset : α :=
  Scalar.settled (Scalar.ofNat margin)

/-- The layered placement of a diagram by an engine. -/
def layeredPlacementBy (engine : Engine α) (metrics : Metrics α) (diagram : Diagram) :
    Placement α :=
  placeComponents metrics (lastHeight metrics diagram.entities) firstOffset
    (engine metrics (Graph.ofDiagram metrics diagram))

end

/-! ## Drawings -/

/-- The engine of a drawing: the components of a graph, or why it gives up on a component. -/
abbrev DrawingEngine :=
  Metrics Measure → Graph Measure → List (Except String (Component Measure))

/-- A component to compute with. -/
def Component.computed (component : Component Measure) : Component Computed :=
  component.map fun (name, centre) => (name, ⟨.ok centre.x, .ok centre.y⟩)

/-- A component whose centres were computed. -/
def Component.settled (component : Component Computed) : Except NumberFault (Component Measure) :=
  component.mapM fun (name, centre) => do
    let x ← centre.x
    let y ← centre.y
    return (name, ⟨x, y⟩)

/-- The boxes of a component that is not empty, and the offset behind it. The extent is computed before
the boxes and the offset after them, which decides what is reported where several of them fail. -/
def placeComponent
    (metrics : Metrics Computed) (heightOf : Text → Computed) (offset : Computed)
    (first : Text × Centre Computed) (rest : Component Computed) :
    Except NumberFault (Placement Measure × Measure) := do
  let extent := extentOf metrics heightOf first rest
  let _ ← extent.left
  let _ ← extent.top
  let _ ← extent.right
  let boxes ← Placement.settled (boxesWithin metrics heightOf offset extent (first :: rest))
  let behind ← offsetBehind metrics offset extent
  return (boxes, behind)

/-- The boxes of the components that an engine finds, one behind the other from an offset on. -/
def placeInTurn (metrics : Metrics Computed) (heightOf : Text → Computed) :
    Computed → List (Except String (Component Measure)) → Except LayoutFault (Placement Measure)
  | _, [] => .ok []
  | _, .error reason :: _ => .error (.engine reason)
  | offset, .ok component :: rest =>
    match Component.computed component with
    | [] => .error .emptyComponent
    | first :: more => do
      let (boxes, behind) ← (placeComponent metrics heightOf offset first more).mapError .number
      let others ← placeInTurn metrics heightOf (.ok behind) rest
      return boxes ++ others

/-- The layered placement of a diagram. -/
def layeredPlacement
    (engine : DrawingEngine) (metrics : Metrics Measure) (diagram : Diagram) :
    Except LayoutFault (Placement Measure) := do
  if diagram.entities.isEmpty then return []
  else
    let graph ← (Graph.ofDiagram metrics.computed diagram).settled.mapError .number
    placeInTurn metrics.computed (lastHeight metrics.computed diagram.entities) firstOffset
      (engine metrics graph)

end EntityDiagram.Layout
