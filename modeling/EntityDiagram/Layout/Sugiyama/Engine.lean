import EntityDiagram.Layout.Layered
import EntityDiagram.Layout.Sugiyama.Alignment

/-!
# An engine for layers

The engine joins the names that are connected to components, cuts a component into layers, orders them,
and puts the nodes of a layer as closely beside each other as the spacing allows. It is one engine among
others: the layered placement and the renderers work with any.
-/

namespace EntityDiagram.Layout.Sugiyama

open Layered (Graph Link)
open Number (Computed Measure NumberFault Scalar)

section

variable {α : Type} [Scalar α]

/-- The height of the box of a name. -/
def heightOf (graph : Graph α) (name : Text) : α :=
  (graph.vertices.lookup name).getD (Scalar.ofNat 0)

/-- Groups of names after a link: the group of its target is appended to the group of its
source. -/
def joinGroups (groups : List (List Text)) (link : Link) : List (List Text) :=
  match groups.find? (·.contains link.2) with
  | none => groups
  | some targets =>
    if targets.contains link.1 then groups
    else
      (groups.filter fun group => !group.contains link.2).map fun group =>
        if group.contains link.1 then group ++ targets else group

/-- The connected components, as groups of names. -/
def components (graph : Graph α) : List (List Text) :=
  graph.links.foldl joinGroups (graph.names.map fun name => [name])

/-- The height of every bend: the middle one of the heights of a component's boxes. -/
def bendHeight (graph : Graph α) (component : List Text) : α :=
  let heights := Scalar.ascending (component.map (heightOf graph))
  heights.getD (component.length / 2) (Scalar.ofNat 0)

/-- The height of what stands in a layer. -/
def nodeHeight (graph : Graph α) (bend : α) : Node → α
  | .entity name => heightOf graph name
  | .bend _ _ => bend

/-- The vertical centres of the nodes, layer under layer from an upper edge on. -/
def centresY
    (spacing : α) (heightOf : Node → α) : α → List (List Node) → List (Node × α)
  | _, [] => []
  | top, layer :: rest =>
    let half :=
      match layer.map fun node => Scalar.half (heightOf node) with
      | [] => Scalar.ofNat 0
      | first :: others => Scalar.largest first others
    layer.map (fun node => (node, top + half)) ++
      centresY spacing heightOf (top + (Scalar.ofNat 2 * half + spacing)) rest

/-- The centres of the names of a component. -/
def centresOf (metrics : Metrics α) (graph : Graph α) (component : List Text) : Component α :=
  let (layering, initial) := layersOf graph.links component
  let layers := arrange layering initial
  let arrangement : Arrangement :=
    { layering
      layers
      positions := allPositions layers }
  let pitch := Scalar.settled metrics.horizontalSpacing +
    Scalar.half (metrics.entityWidth + metrics.entityWidth)
  let x := centreX arrangement pitch
  let heights := nodeHeight graph (bendHeight graph component)
  let y : Std.HashMap Node α :=
    Std.HashMap.ofList (centresY metrics.verticalSpacing heights (Scalar.ofNat 0) layers)
  component.map fun name =>
    (name, ⟨x (.entity name), y.getD (.entity name) (Scalar.ofNat 0)⟩)

/-- Finds the components and the centres of their names. -/
def engine : Engine α := fun metrics graph =>
  (components graph).map (centresOf metrics graph)

end

/-- The engine for drawings. It gives up on a component where a centre cannot be computed. -/
def drawingEngine : DrawingEngine := fun metrics graph =>
  (engine metrics.computed graph.computed).map fun component =>
    component.settled.mapError NumberFault.message

end EntityDiagram.Layout.Sugiyama
