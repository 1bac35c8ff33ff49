import EntityDiagram.Layout.Layered.Graph
import Std.Data.HashMap

/-!
# Layers

A component is cut into layers such that every connection points downwards. Connections that close a
cycle, as a depth-first search meets it, are turned round first. A name then gets the rank below the
lowest one that points to it, and a connection that spans several layers gets a bend in each layer
between its ends.
-/

namespace EntityDiagram.Layout.Sugiyama

open Layered (Link)

/-- A connection of a component, in its current direction. -/
structure Arc where
  /-- The number of the connection within the component. -/
  index : Nat
  source : Text
  target : Text
  deriving DecidableEq, Repr

/-- The connection in the opposite direction. -/
def Arc.turned (arc : Arc) : Arc :=
  { arc with source := arc.target, target := arc.source }

/-- The end of a connection that is not the given one. -/
def Arc.otherEnd (arc : Arc) (name : Text) : Text :=
  if arc.source == name then arc.target else arc.source

/-- The connections among the names of a component, numbered in order. -/
def arcsWithin (component : List Text) (links : List Link) : List Arc :=
  let inside := links.filter fun link => component.contains link.1 && component.contains link.2
  inside.zipIdx.map fun (link, index) => ⟨index, link.1, link.2⟩

/-- The connections that start at a name. -/
def outgoing (arcs : List Arc) (name : Text) : List Arc :=
  arcs.filter fun arc => arc.source == name

/-- The connections that end at a name. -/
def incoming (arcs : List Arc) (name : Text) : List Arc :=
  arcs.filter fun arc => arc.target == name

/-- The connections that start or end at a name. -/
def touching (arcs : List Arc) (name : Text) : List Arc :=
  arcs.filter fun arc => arc.source == name || arc.target == name

/-- The names that no connection points to. -/
def sources (arcs : List Arc) (component : List Text) : List Text :=
  component.filter fun name => (incoming arcs name).isEmpty

/-- What a depth-first search has met. -/
structure Search where
  visited : List Text := []
  /-- The numbers of the connections that close a cycle. -/
  closing : List Nat := []

/-- Searches on from a name; the path leads to it, and the bound limits its further length. -/
def Search.visit (arcs : List Arc) : Nat → List Text → Search → Text → Search
  | 0, _, search, _ => search
  | bound + 1, path, search, name =>
    let path := name :: path
    (outgoing arcs name).foldl (fun (search : Search) arc =>
      if !search.visited.contains arc.target then
        Search.visit arcs bound path search arc.target
      else if path.contains arc.target then
        { search with closing := arc.index :: search.closing }
      else search) { search with visited := name :: search.visited }

/-- The numbers of the connections that close a cycle. -/
def closingArcs (arcs : List Arc) (component : List Text) : List Nat :=
  let starts := sources arcs component ++ component
  (starts.foldl (fun (search : Search) name =>
    if search.visited.contains name then search
    else Search.visit arcs (component.length + 1) [] search name) {}).closing

/-- The connections without cycles. -/
def withoutCycles (arcs : List Arc) (component : List Text) : List Arc :=
  let closing := closingArcs arcs component
  arcs.map fun arc => if closing.contains arc.index then arc.turned else arc

/-- Names with their ranks, in the order in which they were ranked. -/
abbrev Ranks := List (Text × Nat)

/-- The rank of a name that has one. -/
def rankOf? (ranks : Ranks) (name : Text) : Option Nat :=
  ranks.lookup name

/-- The rank below all names that point to a name. -/
def rankBelow (arcs : List Arc) (ranks : Ranks) (name : Text) : Nat :=
  ((incoming arcs name).filterMap fun arc => (rankOf? ranks arc.source).map (· + 1)).foldl max 0

/-- The progress of ranking: the ranks, the numbers of the connections that were followed, and the
names that come next. -/
structure Ranking where
  ranks : Ranks := []
  followed : List Nat := []
  next : List Text := []

/-- Ranks a name and finds the names all of whose incoming connections have been followed. -/
def Ranking.step (arcs : List Arc) (ranking : Ranking) (name : Text) : Ranking :=
  let leaving := outgoing arcs name
  let followed := leaving.map Arc.index ++ ranking.followed
  { ranks := ranking.ranks ++ [(name, rankBelow arcs ranking.ranks name)]
    followed
    next := leaving.foldl (fun next arc =>
      if (incoming arcs arc.target).all (fun entering => followed.contains entering.index) &&
          !next.contains arc.target then next ++ [arc.target]
      else next) ranking.next }

/-- Ranks wave after wave of names, a bounded number of waves. -/
def rankWaves (arcs : List Arc) : Nat → Ranks → List Nat → List Text → Ranks
  | 0, ranks, _, _ => ranks
  | bound + 1, ranks, followed, wave =>
    if wave.isEmpty then ranks
    else
      let ranking := wave.foldl (Ranking.step arcs) { ranks, followed }
      rankWaves arcs bound ranking.ranks ranking.followed ranking.next

/-- The ranks of a component. The first wave holds the names that nothing pointed to before
connections were turned round, then those that nothing points to since. -/
def ranksOf (before arcs : List Arc) (component : List Text) : Ranks :=
  let first := sources before component
  let later := (sources arcs component).filter fun name => !first.contains name
  rankWaves arcs (component.length + 1) [] [] (first ++ later)

/-- What stands in a layer: an entity, or the bend of a connection on its way through. -/
inductive Node where
  | entity (name : Text)
  | bend (arc : Nat) (rank : Nat)
  deriving DecidableEq, Hashable, Repr

/-- Whether a node is a bend. -/
def Node.isBend : Node → Bool
  | .entity _ => false
  | .bend _ _ => true

/-- A component in layers: its connections without cycles, the ranks of its names, and the bends of
connections at the ranks between their ends. -/
structure Layering where
  arcs : List Arc
  ranks : Std.HashMap Text Nat

namespace Layering

/-- The rank of a name. -/
def rank (layering : Layering) (name : Text) : Nat :=
  layering.ranks.getD name 0

/-- The bends of a connection. -/
def bendsOf (layering : Layering) (arc : Arc) : List Node :=
  let low := layering.rank arc.source
  let high := layering.rank arc.target
  ((List.range high).filter (low < ·)).map (Node.bend arc.index)

/-- What a connection has in a layer: one of its ends, or a bend. -/
def nodeAt (layering : Layering) (arc : Arc) (rank : Nat) : Node :=
  if rank = layering.rank arc.source then .entity arc.source
  else if rank = layering.rank arc.target then .entity arc.target
  else .bend arc.index rank

/-- The node next to an entity, in the adjacent layer, on the way to another one: that one itself,
or the bend of the first connection between the two. -/
def towards (layering : Layering) (name other : Text) (rank : Nat) : Node :=
  if layering.rank other = rank then .entity other
  else
    match (touching layering.arcs name).find? fun arc => arc.otherEnd name == other with
    | some arc => .bend arc.index rank
    | none => .entity other

end Layering

/-- The side of a layer that is looked at. -/
inductive Side where
  | above
  | below
  deriving DecidableEq, Repr

/-- The neighbours of a node in the adjacent layer of a side. -/
def Layering.neighbours (layering : Layering) (side : Side) : Node → List Node
  | .entity name =>
    let rank := layering.rank name
    match side with
    | .above => (incoming layering.arcs name).map fun arc =>
        layering.towards name arc.source (rank - 1)
    | .below => (outgoing layering.arcs name).map fun arc =>
        layering.towards name arc.target (rank + 1)
  | .bend index rank =>
    let adjacent := match side with
      | .above => rank - 1
      | .below => rank + 1
    match layering.arcs.find? fun arc => arc.index == index with
    | some arc => [layering.nodeAt arc adjacent]
    | none => []

/-- The layering of a component and its layers, from the top. -/
def layersOf (links : List Link) (component : List Text) : Layering × List (List Node) :=
  let before := arcsWithin component links
  let arcs := withoutCycles before component
  let ranks := ranksOf before arcs component
  let layering : Layering := ⟨arcs, Std.HashMap.ofList ranks⟩
  let height := (ranks.map fun entry => entry.2 + 1).foldl max 0
  let bends := arcs.flatMap layering.bendsOf
  let layer (rank : Nat) : List Node :=
    (ranks.filter fun entry => entry.2 = rank).map (fun entry => Node.entity entry.1) ++
      bends.filter fun node =>
        match node with
        | .bend _ position => position = rank
        | .entity _ => false
  (layering, (List.range height).map layer)

end EntityDiagram.Layout.Sugiyama
