import EntityDiagram.Layout.Box

/-!
# The graph of a diagram

What a layered placement is about: every entity name once, with the height of the last entity of
that name, and every connected pair of different names once, in the direction of its first
relationship.
-/

namespace EntityDiagram.Layout.Layered

open Model (Diagram Entity)
open Number (Computed NumberFault Measure Scalar)

/-- Two names that are connected, in the direction of a relationship. -/
abbrev Link := Text × Text

/-- The names and connections of a diagram. -/
structure Graph (α : Type) where
  /-- The names with the heights of their boxes. -/
  vertices : List (Text × α)
  links : List Link

/-- The names of a graph. -/
def Graph.names {α : Type} (graph : Graph α) : List Text :=
  graph.vertices.map Prod.fst

section

variable {α : Type} [Scalar α]

/-- The height of the last entity with a name. -/
def lastHeight (metrics : Metrics α) (entities : List Entity) (name : Text) : α :=
  match entities.reverse.find? fun entity => entity.name == name with
  | some entity => entityHeight metrics entity
  | none => Scalar.ofNat 0

/-- The graph of a diagram. -/
def Graph.ofDiagram (metrics : Metrics α) (diagram : Diagram) : Graph α :=
  let names := (diagram.entities.map Entity.name).eraseDups
  let pairs := diagram.relationships.map fun link => (link.source, link.target)
  { vertices := names.map fun name => (name, lastHeight metrics diagram.entities name)
    links := (pairs.filter fun (source, target) =>
      source != target && names.contains source && names.contains target).eraseDups }

end

/-- A graph whose heights were computed. -/
def Graph.settled (graph : Graph Computed) : Except NumberFault (Graph Measure) := do
  let vertices ← graph.vertices.mapM fun (name, height) => do
    let height ← height
    return (name, height)
  return { vertices, links := graph.links }

/-- A graph to compute with. -/
def Graph.computed (graph : Graph Measure) : Graph Computed :=
  { vertices := graph.vertices.map fun (name, height) => (name, .ok height), links := graph.links }

end EntityDiagram.Layout.Layered
