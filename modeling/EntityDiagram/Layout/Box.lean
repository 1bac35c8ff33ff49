import EntityDiagram.Model.Diagram
import EntityDiagram.Number.Scalar

/-!
# Boxes

Every entity of a drawing is a box. A placement gives boxes to names in the order in which they were
placed; when a name was placed more than once, its last box counts. Boxes can be made of any scalars;
those that are drawn are made of measures.
-/

namespace EntityDiagram.Layout

open Model (Entity)
open Number (Computed Measure NumberFault Scalar)

/-- The height of the title of a box. -/
def headerHeight : Nat := 30

/-- The distance of a drawing from the left and upper edge. -/
def margin : Nat := 40

variable {α : Type}

/-- The sizes that a placement is made with. -/
structure Metrics (α : Type) where
  entityWidth : α
  rowHeight : α
  horizontalSpacing : α
  verticalSpacing : α
  deriving Repr

/-- The upper left corner and the size of a box. -/
structure Box (α : Type) where
  x : α
  y : α
  width : α
  height : α
  deriving DecidableEq, Repr

/-- Sizes to compute with. -/
def Metrics.computed (metrics : Metrics Measure) : Metrics Computed where
  entityWidth := .ok metrics.entityWidth
  rowHeight := .ok metrics.rowHeight
  horizontalSpacing := .ok metrics.horizontalSpacing
  verticalSpacing := .ok metrics.verticalSpacing

/-- A box whose numbers were computed. -/
def Box.settled (box : Box Computed) : Except NumberFault (Box Measure) := do
  let x ← box.x
  let y ← box.y
  let width ← box.width
  let height ← box.height
  return { x, y, width, height }

/-- Why the numbers of a box cannot be written, if they cannot. -/
def Box.fault? (box : Box Measure) : Option NumberFault :=
  [box.x, box.y, box.width, box.height].findSome? Measure.plainTextFault?

/-- The height of an entity's box. -/
def entityHeight [Scalar α] (metrics : Metrics α) (entity : Entity) : α :=
  Scalar.ofNat headerHeight + Scalar.ofNat entity.attributes.length * metrics.rowHeight

/-- Boxes by name, in the order in which they were placed. -/
abbrev Placement (α : Type) := List (Text × Box α)

namespace Placement

/-- The last box of a name. -/
def box? (placement : Placement α) (name : Text) : Option (Box α) :=
  (placement.reverse.find? fun entry => entry.1 == name).map Prod.snd

/-- Every name once, in the order of first placement, with its last box. -/
def distinct (placement : Placement α) : Placement α :=
  (placement.map Prod.fst).eraseDups.filterMap fun name =>
    (placement.box? name).map fun box => (name, box)

/-- Every name once with its last box, sorted by name. -/
def sorted (placement : Placement α) : Placement α :=
  placement.distinct.mergeSort fun a b => a.1.isBefore b.1

end Placement

/-- A placement whose numbers were computed, box by box. -/
def Placement.settled (placement : Placement Computed) :
    Except NumberFault (Placement Measure) :=
  placement.mapM fun (name, box) => do
    let box ← box.settled
    return (name, box)

/-- Why boxes cannot be placed or drawn. -/
inductive LayoutFault where
  /-- A number cannot be computed or written. -/
  | number (fault : NumberFault)
  /-- The engine that computes layers gave up. -/
  | engine (reason : String)
  /-- The engine found a component without names. -/
  | emptyComponent
  /-- A name has no box. -/
  | unplaced (name : Text)
  deriving DecidableEq, Repr

/-- The fault in words. -/
def LayoutFault.message : LayoutFault → String
  | .number fault => fault.message
  | .engine reason => "Grandalf layout failed (Draw.io diagram): " ++ reason
  | .emptyComponent => "min() arg is an empty sequence"
  | .unplaced name => Text.quoted name

end EntityDiagram.Layout
