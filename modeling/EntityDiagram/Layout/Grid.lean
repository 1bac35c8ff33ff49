import EntityDiagram.Layout.Box

/-!
# Grid placement

Boxes stand in rows of a fixed length. A row is as high as 200 and the vertical spacing together,
whatever boxes stand in it.
-/

namespace EntityDiagram.Layout

open Model (Entity)
open Number (Measure Scalar)

/-- The height of a row of the grid without the spacing. -/
def gridRowHeight : Nat := 200

section

variable {α : Type} [Scalar α]

/-- The row of the box with an index. -/
def gridRow (perRow : α) (index : Nat) : α :=
  Scalar.floorQuotient (Scalar.ofNat index) perRow

/-- The column of the box with an index: what its row leaves over. -/
def gridColumn (perRow : α) (index : Nat) : α :=
  Scalar.floorRest (Scalar.ofNat index) perRow

/-- The box of the entity with an index. -/
def gridBox (metrics : Metrics α) (perRow : α) (index : Nat) (entity : Entity) : Box α :=
  { x := gridColumn perRow index * (metrics.entityWidth + metrics.horizontalSpacing) +
      Scalar.ofNat margin
    y := gridRow perRow index * (Scalar.ofNat gridRowHeight + metrics.verticalSpacing) +
      Scalar.ofNat margin
    width := metrics.entityWidth
    height := entityHeight metrics entity }

/-- The boxes of entities from an index on. -/
def gridFrom (metrics : Metrics α) (perRow : α) : Nat → List Entity → Placement α
  | _, [] => []
  | index, entity :: rest =>
    (entity.name, gridBox metrics perRow index entity) :: gridFrom metrics perRow (index + 1) rest

end

/-- The placement of entities in rows. -/
def gridPlacement
    (metrics : Metrics Measure) (perRow : Measure) (entities : List Entity) :
    Except LayoutFault (Placement Measure) :=
  (Placement.settled (gridFrom metrics.computed (.ok perRow) 0 entities)).mapError .number

end EntityDiagram.Layout
