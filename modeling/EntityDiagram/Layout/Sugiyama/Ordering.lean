import EntityDiagram.Layout.Sugiyama.Layers

/-!
# The order within layers

Nodes are put in an order that lets few connections cross. A layer is looked at together with the
adjacent layer on one side: if connections between the two cross, its nodes are sorted by the mean
position of their neighbours, and adjacent nodes are swapped where that saves crossings. Layers are
worked through downwards, and if any connections crossed, once more upwards and downwards.
-/

namespace EntityDiagram.Layout.Sugiyama

/-- Nodes with their positions in a layer. -/
abbrev Positions := Std.HashMap Node Nat

/-- The positions of the nodes of a layer. -/
def positionsOf (layer : List Node) : Positions :=
  Std.HashMap.ofList layer.zipIdx

/-- A layer as seen from one side: the positions of every node's neighbours there, in the order of
the connections. The order matters to sums of floating-point numbers. -/
structure View where
  /-- The number of nodes of the adjacent layer. -/
  width : Nat
  adjacent : Node → List Nat

/-- The view from a side whose layer is given. -/
def viewOf (layering : Layering) (side : Side) (adjacentLayer : List Node) : View :=
  let positions := positionsOf adjacentLayer
  { width := adjacentLayer.length
    adjacent := fun node =>
      (layering.neighbours side node).map fun neighbour => positions.getD neighbour 0 }

/-- How many pairs of a list stand in the wrong order. -/
def inversions : List Nat → Nat
  | [] => 0
  | first :: rest => (rest.filter (· < first)).length + inversions rest

/-- How far apart the nodes of a layer are when the layer has length one. -/
def gapOf (width : Nat) : Float :=
  if 1 < width then 1.0 / (width - 1).toFloat else 1.0

/-- The mean position of the neighbours, in a layer of length one; the node's own position where it
has no neighbours. -/
def barycentre (view : View) (own : Float) (node : Node) : Float :=
  let places := (view.adjacent node).map fun position => position.toFloat * gapOf view.width
  if places.isEmpty then own
  else places.foldl (fun sum place => sum + place) 0.0 / places.length.toFloat

/-- A layer sorted by barycentres. Nodes with equal ones stay in order. -/
def sortByBarycentre (view : View) (layer : List Node) : List Node :=
  let keyed := layer.zipIdx.map fun (node, index) =>
    (barycentre view (index.toFloat * gapOf layer.length) node, node)
  (keyed.mergeSort fun a b => decide (a.1 ≤ b.1)).map Prod.snd

/-- How many connections of a left and a right node cross. -/
def crossings (view : View) (left right : Node) : Nat :=
  ((view.adjacent left).flatMap fun p => (view.adjacent right).filter (· < p)).length

/-- How many connections of a left and a right node would cross if the two were swapped. -/
def swappedCrossings (view : View) (left right : Node) : Nat :=
  ((view.adjacent left).flatMap fun p => (view.adjacent right).filter (p ≤ ·)).length

/-- Carries a node to the right through a layer, past every node behind which it has fewer
crossings; a node that it does not pass is carried on instead. Counts the crossings of the pairs. -/
def bubble (view : View) (carried : Node) : List Node → List Node × Nat
  | [] => ([carried], 0)
  | next :: rest =>
    let now := crossings view carried next
    let swapped := swappedCrossings view carried next
    if swapped < now then
      let (behind, count) := bubble view carried rest
      (next :: behind, swapped + count)
    else
      let (behind, count) := bubble view next rest
      (carried :: behind, now + count)

/-- A layer in a better order as seen from one side, and the number of its crossings. -/
def improve (view : View) (layer : List Node) : List Node × Nat :=
  if inversions (layer.flatMap fun node => (view.adjacent node).mergeSort) = 0 then (layer, 0)
  else
    match sortByBarycentre view layer with
    | [] => ([], 0)
    | first :: rest => bubble view first rest

/-- Improves layers one after the other, each one as seen from the layer before it. -/
def sweepFrom
    (layering : Layering) (side : Side) (before : List Node) :
    List (List Node) → List (List Node) × Nat
  | [] => ([], 0)
  | layer :: rest =>
    let (better, count) := improve (viewOf layering side before) layer
    let (others, total) := sweepFrom layering side better rest
    (better :: others, count + total)

/-- Improves all layers but the first, in the order in which they are given. -/
def sweep (layering : Layering) (side : Side) :
    List (List Node) → List (List Node) × Nat
  | [] => ([], 0)
  | first :: rest =>
    let (others, total) := sweepFrom layering side first rest
    (first :: others, total)

/-- The layers in their final order. -/
def arrange (layering : Layering) (layers : List (List Node)) : List (List Node) :=
  let (down, total) := sweep layering .above layers
  if total = 0 then down
  else
    let up := (sweep layering .below down.reverse).1.reverse
    (sweep layering .above up).1

end EntityDiagram.Layout.Sugiyama
