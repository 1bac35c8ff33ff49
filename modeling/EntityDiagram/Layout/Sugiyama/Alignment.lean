import EntityDiagram.Layout.Sugiyama.Ordering

/-!
# Coordinates

Nodes are drawn under each other where possible. Four times, once for each combination of a vertical
and a horizontal direction, every node is aligned with the middle one of its neighbours, aligned
nodes form blocks, and the blocks are pushed together as closely as the spacing allows. The centre of
a node lies in the middle between the second and the third of its four coordinates.

A connection that would cross a stretch of bends gives way: it is in conflict with that stretch and
takes no part in the alignment.
-/

namespace EntityDiagram.Layout.Sugiyama

open Number (Scalar)

/-- Layers with the positions of their nodes. -/
structure Arrangement where
  layering : Layering
  layers : List (List Node)
  positions : Positions

/-- The positions of the nodes of all layers, each within its own layer. -/
def allPositions (layers : List (List Node)) : Positions :=
  layers.foldl (fun positions layer => positions.insertMany layer.zipIdx) ∅

namespace Arrangement

/-- The position of a node in its layer. -/
def position (arrangement : Arrangement) (node : Node) : Nat :=
  arrangement.positions.getD node 0

/-- The neighbours of a node on a side. -/
def neighbours (arrangement : Arrangement) (side : Side) (node : Node) : List Node :=
  arrangement.layering.neighbours side node

end Arrangement

/-- The upper and the lower end of a connection that gives way. -/
abbrev Conflict := Node × Node

/-- The bend above a bend, if the node above it is one. -/
def innerBend? (arrangement : Arrangement) (node : Node) : Option Node :=
  (arrangement.neighbours .above node).head?.filter Node.isBend

/-- The conflicts of a stretch of nodes whose upper neighbours have to lie between two positions. -/
def conflictsOutside
    (arrangement : Arrangement) (low high : Nat) (stretch : List Node) : List Conflict :=
  stretch.flatMap fun lower =>
    (arrangement.neighbours .above lower).filterMap fun upper =>
      let position := arrangement.position upper
      if position < low ∨ high < position then some (upper, lower) else none

/-- The conflicts of a layer, whose nodes are gone through from the left. The nodes since the last
settled bend are open, in reverse order, and their upper neighbours start at a position. -/
def conflictsFrom
    (arrangement : Arrangement) (upperWidth : Nat) (low : Nat) (opened : List Node) :
    List Node → List Conflict
  | [] => []
  | node :: rest =>
    let stretch := node :: opened
    if !node.isBend then conflictsFrom arrangement upperWidth low stretch rest
    else
      match innerBend? arrangement node with
      | some upper =>
        let high := arrangement.position upper
        conflictsOutside arrangement low high stretch ++
          conflictsFrom arrangement upperWidth high [] rest
      | none =>
        if rest.isEmpty then conflictsOutside arrangement low (upperWidth - 1) stretch
        else conflictsFrom arrangement upperWidth low stretch rest

/-- The conflicts between each layer and the one above it. -/
def conflicts (arrangement : Arrangement) : List Conflict :=
  (arrangement.layers.zip arrangement.layers.tail).flatMap fun (upper, lower) =>
    conflictsFrom arrangement upper.length 0 [] lower

/-- The directions of one of the four passes. -/
structure Pass where
  /-- The layers are gone through from the left, and not from the right. -/
  leftward : Bool
  /-- The side on which the neighbours to align with are looked for. -/
  side : Side
  deriving DecidableEq, Repr

/-- The four passes. -/
def passes : List Pass :=
  [⟨true, .above⟩, ⟨false, .above⟩, ⟨true, .below⟩, ⟨false, .below⟩]

namespace Pass

/-- A list in the horizontal direction of the pass. -/
def across {α : Type} (pass : Pass) (items : List α) : List α :=
  if pass.leftward then items else items.reverse

/-- The layers in the vertical direction of the pass. -/
def along (pass : Pass) (layers : List (List Node)) : List (List Node) :=
  match pass.side with
  | .above => layers
  | .below => layers.reverse

/-- Whether a position comes before another one in the horizontal direction. -/
def isBefore (pass : Pass) (a b : Nat) : Bool :=
  if pass.leftward then decide (a < b) else decide (b < a)

/-- The connection of a node to an aligned one, as a pair of its upper and its lower end. -/
def connection (pass : Pass) (node neighbour : Node) : Conflict :=
  match pass.side with
  | .above => (neighbour, node)
  | .below => (node, neighbour)

end Pass

/-- Blocks of aligned nodes: the root of every node's block, and the next node of the block, the
last one leading back to the root. A node that is not listed is a block of its own. -/
structure Blocks where
  roots : Std.HashMap Node Node := ∅
  nexts : Std.HashMap Node Node := ∅

namespace Blocks

/-- The root of a node's block. -/
def root (blocks : Blocks) (node : Node) : Node :=
  blocks.roots.getD node node

/-- The node behind a node in its block. -/
def next (blocks : Blocks) (node : Node) : Node :=
  blocks.nexts.getD node node

/-- Puts a node at the end of the block of a neighbour. -/
def attach (blocks : Blocks) (node neighbour : Node) : Blocks :=
  let root := blocks.root neighbour
  { roots := blocks.roots.insert node root
    nexts := (blocks.nexts.insert neighbour node).insert node root }

/-- The nodes of the block of a root, from the root on, at most so many. -/
def membersFrom (blocks : Blocks) (root : Node) : Nat → Node → List Node
  | 0, _ => []
  | bound + 1, node =>
    let next := blocks.next node
    node :: (if next = root then [] else membersFrom blocks root bound next)

end Blocks

/-- The one or two middle positions of an ascending list, in the horizontal direction. -/
def medians (pass : Pass) (ascending : List Nat) : List Nat :=
  let ordered := pass.across ascending
  if ordered.isEmpty then []
  else
    let middle := (ordered.length - 1) / 2
    (ordered.drop middle).take (if (ordered.length - 1) % 2 = 0 then 1 else 2)

/-- Tries to align a node with the node at a position of the adjacent layer, behind the last
position that was used. -/
def alignAt
    (pass : Pass) (avoided : List Conflict) (adjacent : Array Node) (node : Node)
    (state : Blocks × Option Nat) (position : Nat) : Blocks × Option Nat :=
  let (blocks, last) := state
  match adjacent[position]? with
  | none => state
  | some neighbour =>
    if blocks.next node = node && !avoided.contains (pass.connection node neighbour) &&
        last.all (fun used => pass.isBefore used position) then
      (blocks.attach node neighbour, some position)
    else state

/-- Aligns the nodes of a layer with those of the adjacent layer. -/
def alignLayer
    (arrangement : Arrangement) (pass : Pass) (avoided : List Conflict)
    (adjacent layer : List Node) (blocks : Blocks) : Blocks :=
  ((pass.across layer).foldl (fun state node =>
    let ascending :=
      ((arrangement.neighbours pass.side node).map arrangement.position).mergeSort
    (medians pass ascending).foldl (alignAt pass avoided adjacent.toArray node) state)
    (blocks, none)).1

/-- The blocks of a pass. -/
def alignAll
    (arrangement : Arrangement) (pass : Pass) (avoided : List Conflict) : Blocks :=
  let ordered := pass.along arrangement.layers
  (ordered.zip ordered.tail).foldl (fun blocks (adjacent, layer) =>
    alignLayer arrangement pass avoided adjacent layer blocks) {}

/-- The blocks that have been placed: the coordinate of every root, the class that a root belongs
to, and how far a class has to be moved. -/
structure Placing (α : Type) where
  places : Std.HashMap Node α := ∅
  sinks : Std.HashMap Node Node := ∅
  shifts : Std.HashMap Node α := ∅

variable {α : Type} [Scalar α]

/-- Where every block starts from. -/
def origin : α :=
  Scalar.settled (Scalar.ofNat 0)

/-- The class of a root. -/
def Placing.sink (placing : Placing α) (root : Node) : Node :=
  placing.sinks.getD root root

/-- The coordinate of a root. -/
def Placing.place (placing : Placing α) (root : Node) : α :=
  placing.places.getD root origin

/-- Keeps a block at a distance from the block before it: within one class by moving the block, and
between two classes by noting how far the other class has to move. -/
def Placing.keepApart (placing : Placing α) (pitch : α) (root before : Node) : Placing α :=
  let placing :=
    if placing.sink root = root then
      { placing with sinks := placing.sinks.insert root (placing.sink before) }
    else placing
  let needed := placing.place before + pitch
  if placing.sink root = placing.sink before then
    { placing with places := placing.places.insert root (Scalar.greater (placing.place root) needed) }
  else
    let moved := placing.sink before
    let room := placing.place root - needed
    let shift := match placing.shifts[moved]? with
      | some known => Scalar.lesser known room
      | none => room
    { placing with shifts := placing.shifts.insert moved shift }

/-- What placing blocks needs to know: the distance between the centres of two boxes that stand side
by side, the node before each node in the horizontal direction, and the nodes of each block. -/
structure BlockContext (α : Type) where
  pitch : α
  blocks : Blocks
  before? : Node → Option Node
  members : Node → List Node

/-- Places the block of a root after the blocks that stand before its nodes; the bound limits how
many blocks stand before each other. -/
def placeBlock (context : BlockContext α) : Nat → Placing α → Node → Placing α
  | 0, placing, _ => placing
  | bound + 1, placing, root =>
    if placing.places.contains root then placing
    else
      (context.members root).foldl (fun placing node =>
        match context.before? node with
        | none => placing
        | some before =>
          let beforeRoot := context.blocks.root before
          (placeBlock context bound placing beforeRoot).keepApart context.pitch root beforeRoot)
        { placing with places := placing.places.insert root origin }

/-- The coordinates of all nodes in one pass. -/
def coordinates
    (arrangement : Arrangement) (pitch : α) (avoided : List Conflict) (pass : Pass) : Node → α :=
  let blocks := alignAll arrangement pass avoided
  let nodes := arrangement.layers.flatten
  let before : Std.HashMap Node Node :=
    (arrangement.layers.flatMap fun layer =>
      let ordered := pass.across layer
      ordered.tail.zip ordered).foldl (fun map (node, before) => map.insert node before) ∅
  let context : BlockContext α :=
    { pitch
      blocks
      before? := fun node => before[node]?
      members := fun root => blocks.membersFrom root (nodes.length + 1) root }
  let starts := (pass.along arrangement.layers).flatMap fun layer =>
    (pass.across layer).filter fun node => blocks.root node = node
  let placing : Placing α := starts.foldl (placeBlock context (nodes.length + 1)) {}
  fun node =>
    let root := blocks.root node
    let moved :=
      match placing.shifts[placing.sink root]? with
      | some shift => placing.place root + shift
      | none => placing.place root
    if pass.leftward then moved else origin - moved

/-- The middle between the second and the third of four coordinates. -/
def middle (values : List α) : α :=
  match Scalar.ascending values with
  | _ :: b :: c :: _ => Scalar.half (b + c)
  | _ => origin

/-- The horizontal centre of every node, when the centres of two boxes that stand side by side have a
distance. -/
def centreX (arrangement : Arrangement) (pitch : α) : Node → α :=
  let avoided := conflicts arrangement
  let byPass := passes.map (coordinates arrangement pitch avoided)
  fun node => middle (byPass.map fun coordinate => coordinate node)

end EntityDiagram.Layout.Sugiyama
