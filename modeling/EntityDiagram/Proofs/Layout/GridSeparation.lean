import EntityDiagram.Proofs.Layout.Placements
import Mathlib.Data.Rat.Floor
import Mathlib.Data.Set.Prod
import Mathlib.Order.CompletePartialOrder
import Mathlib.Order.Interval.Set.Basic
import Mathlib.Tactic.Linarith
import Mathlib.Tactic.NormNum
import Mathlib.Tactic.Ring

/-!
# Boxes in rows do not overlap

Two boxes of a row stand in different columns, at least one column apart, and two boxes of different
rows are at least the height of a row apart. So boxes overlap only if one of them is higher than its
row. All this is exact for rational sizes; drawings with whole sizes are computed without rounding,
so it holds for them.
-/

namespace EntityDiagram.Layout

open Model (Entity)
open Number (Computed Measure Scalar)

/-! ## What boxes in rows look like -/

/-- The points inside a box. -/
def Box.interior (box : Box ℚ) : Set (ℚ × ℚ) :=
  Set.Ioo box.x (box.x + box.width) ×ˢ Set.Ioo box.y (box.y + box.height)

/-- The box of the entity with an index. -/
def Placement.boxAt? {α : Type} (placement : Placement α) (entities : List Entity) (index : ℕ) :
    Option (Box α) :=
  entities[index]?.bind fun entity => placement.box? entity.name

/-- Every entity has a box behind the margin, and the boxes of different entities keep apart. The row
of an index is the whole part of its quotient by the length of a row, and the column is what is left
over. -/
structure IsGrid
    (metrics : Metrics ℚ) (perRow : ℚ) (entities : List Entity) (placement : Placement ℚ) :
    Prop where
  placed : ∀ entity ∈ entities, ∃ box, placement.box? entity.name = some box ∧
    box.width = metrics.entityWidth ∧
    box.height = 30 + entity.attributes.length * metrics.rowHeight ∧ 40 ≤ box.x ∧ 40 ≤ box.y
  disjoint : ∀ {i j : ℕ} {a b : Box ℚ}, i < j → placement.boxAt? entities i = some a →
    placement.boxAt? entities j = some b → Disjoint a.interior b.interior
  sameRow : ∀ {i j : ℕ} {a b : Box ℚ}, i < j → placement.boxAt? entities i = some a →
    placement.boxAt? entities j = some b → ⌊i / perRow⌋ = ⌊j / perRow⌋ →
      a.y = b.y ∧ a.x + a.width + metrics.horizontalSpacing ≤ b.x
  sameColumn : ∀ {i j : ℕ} {a b : Box ℚ}, i < j → placement.boxAt? entities i = some a →
    placement.boxAt? entities j = some b → Int.fract (i / perRow) = Int.fract (j / perRow) →
      a.x = b.x

/-! ## Exact boxes -/

theorem gridBox_x
    (metrics : Metrics ℚ) (perRow : ℚ) (index : ℕ) (entity : Entity) :
    (gridBox metrics perRow index entity).x =
      (index - perRow * ⌊index / perRow⌋) *
        (metrics.entityWidth + metrics.horizontalSpacing) + 40 :=
  rfl

theorem gridBox_y
    (metrics : Metrics ℚ) (perRow : ℚ) (index : ℕ) (entity : Entity) :
    (gridBox metrics perRow index entity).y =
      ⌊index / perRow⌋ * (200 + metrics.verticalSpacing) + 40 :=
  rfl

/-- A column is the whole length of a row times the part of the quotient behind the point. -/
theorem column_eq
    {perRow : ℚ} (hrow : 0 < perRow) (index : ℕ) :
    index - perRow * ⌊index / perRow⌋ = perRow * Int.fract (index / perRow) := by
  rw [Int.fract, mul_sub, mul_div_cancel₀ _ hrow.ne']

theorem column_nonneg
    {perRow : ℚ} (hrow : 0 < perRow) (index : ℕ) :
    0 ≤ index - perRow * ⌊index / perRow⌋ := by
  rw [column_eq hrow]
  exact mul_nonneg hrow.le (Int.fract_nonneg _)

variable {metrics : Metrics ℚ} {perRow : ℚ}

theorem margin_le_gridBox
    (hsizes : metrics.IsNonneg) (hrow : 0 < perRow) (index : ℕ) (entity : Entity) :
    40 ≤ (gridBox metrics perRow index entity).x ∧ 40 ≤ (gridBox metrics perRow index entity).y := by
  have hpitch : 0 ≤ metrics.entityWidth + metrics.horizontalSpacing :=
    add_nonneg hsizes.entityWidth hsizes.horizontalSpacing
  have hheight : 0 ≤ 200 + metrics.verticalSpacing := by linarith [hsizes.verticalSpacing]
  have hlevel : (0 : ℚ) ≤ ⌊index / perRow⌋ := by
    exact_mod_cast Int.floor_nonneg.mpr (div_nonneg index.cast_nonneg hrow.le)
  rw [gridBox_x, gridBox_y]
  constructor
  · linarith [mul_nonneg (column_nonneg hrow index) hpitch]
  · linarith [mul_nonneg hlevel hheight]

/-- A later box of the same row stands behind the earlier one and the spacing. -/
theorem gridBox_x_of_same_row
    (hsizes : metrics.IsNonneg) {i j : ℕ} (hlt : i < j)
    (hsame : ⌊i / perRow⌋ = ⌊j / perRow⌋) (a b : Entity) :
    (gridBox metrics perRow i a).x + metrics.entityWidth + metrics.horizontalSpacing ≤
      (gridBox metrics perRow j b).x := by
  have hpitch : 0 ≤ metrics.entityWidth + metrics.horizontalSpacing :=
    add_nonneg hsizes.entityWidth hsizes.horizontalSpacing
  have hcolumn : (i : ℚ) - perRow * ⌊i / perRow⌋ + 1 ≤ j - perRow * ⌊j / perRow⌋ := by
    have hnext : (i : ℚ) + 1 ≤ j := by exact_mod_cast hlt
    rw [hsame]
    linarith
  have hstep := mul_le_mul_of_nonneg_right hcolumn hpitch
  rw [gridBox_x, gridBox_x]
  linarith

/-- A later box of another row stands below all boxes that fit into the row of the earlier one. -/
theorem gridBox_y_of_other_row
    (hsizes : metrics.IsNonneg) (hrow : 0 < perRow) {i j : ℕ} (hlt : i < j)
    (hother : ⌊i / perRow⌋ ≠ ⌊j / perRow⌋) {a : Entity}
    (hfits : (gridBox metrics perRow i a).height ≤ 200 + metrics.verticalSpacing) (b : Entity) :
    (gridBox metrics perRow i a).y + (gridBox metrics perRow i a).height ≤
      (gridBox metrics perRow j b).y := by
  have hheight : 0 ≤ 200 + metrics.verticalSpacing := by linarith [hsizes.verticalSpacing]
  have hquotient : (i : ℚ) / perRow ≤ j / perRow :=
    div_le_div_of_nonneg_right (by exact_mod_cast hlt.le) hrow.le
  have hlevel : (⌊i / perRow⌋ : ℚ) + 1 ≤ ⌊j / perRow⌋ := by
    exact_mod_cast lt_of_le_of_ne (Int.floor_le_floor hquotient) hother
  have hstep := mul_le_mul_of_nonneg_right hlevel hheight
  rw [gridBox_y, gridBox_y]
  linarith

theorem disjoint_interior_of_left
    {a b : Box ℚ} (h : a.x + a.width ≤ b.x) :
    Disjoint a.interior b.interior := by
  rw [Box.interior, Box.interior, Set.disjoint_prod]
  left
  rw [Set.disjoint_left]
  intro x ha hb
  linarith [ha.2, hb.1]

theorem disjoint_interior_of_above
    {a b : Box ℚ} (h : a.y + a.height ≤ b.y) :
    Disjoint a.interior b.interior := by
  rw [Box.interior, Box.interior, Set.disjoint_prod]
  right
  rw [Set.disjoint_left]
  intro y ha hb
  linarith [ha.2, hb.1]

/-- Boxes of one row are apart by their columns, and boxes of different rows by their rows. -/
theorem disjoint_gridBox
    (hsizes : metrics.IsNonneg) (hrow : 0 < perRow) {i j : ℕ} (hlt : i < j) {a : Entity}
    (hfits : (gridBox metrics perRow i a).height ≤ 200 + metrics.verticalSpacing) (b : Entity) :
    Disjoint (gridBox metrics perRow i a).interior (gridBox metrics perRow j b).interior := by
  by_cases hsame : ⌊i / perRow⌋ = ⌊j / perRow⌋
  · apply disjoint_interior_of_left
    have hleft := gridBox_x_of_same_row hsizes hlt hsame a b
    change (gridBox metrics perRow i a).x + metrics.entityWidth ≤ _
    linarith [hsizes.horizontalSpacing]
  · exact disjoint_interior_of_above (gridBox_y_of_other_row hsizes hrow hlt hsame hfits b)

/-! ## The boxes of different entities -/

/-- Where names are unique, every entity has the box at its own index. -/
theorem boxAt?_gridFrom
    {entities : List Entity} (hnames : (entities.map Entity.name).Nodup) {index : ℕ}
    {entity : Entity} (hentity : entities[index]? = some entity) :
    (gridFrom metrics perRow 0 entities).boxAt? entities index =
      some (gridBox metrics perRow index entity) := by
  obtain ⟨hbound, rfl⟩ := List.getElem?_eq_some_iff.mp hentity
  have hsplit : entities = entities.take index ++ entities[index] :: entities.drop (index + 1) := by
    rw [← List.drop_eq_getElem_cons hbound, List.take_append_drop]
  have hlast : entities[index].name ∉ (entities.drop (index + 1)).map Entity.name := by
    rw [hsplit, List.map_append, List.map_cons] at hnames
    exact (List.nodup_cons.mp (List.nodup_append.mp hnames).2.1).1
  have hbox := box?_gridFrom hlast metrics perRow 0 (entities.take index)
  rw [← hsplit, List.length_take_of_le hbound.le, Nat.zero_add] at hbox
  rw [Placement.boxAt?, hentity]
  exact hbox

theorem exists_entity_of_boxAt?
    {entities : List Entity} (hnames : (entities.map Entity.name).Nodup) {index : ℕ} {box : Box ℚ}
    (hbox : (gridFrom metrics perRow 0 entities).boxAt? entities index = some box) :
    ∃ entity ∈ entities, box = gridBox metrics perRow index entity := by
  obtain ⟨entity, hentity, -⟩ := Option.bind_eq_some_iff.mp hbox
  rw [boxAt?_gridFrom hnames hentity] at hbox
  exact ⟨entity, List.mem_of_getElem? hentity, (Option.some.inj hbox).symm⟩

theorem isGrid_gridFrom
    {entities : List Entity} (hnames : (entities.map Entity.name).Nodup)
    (hsizes : metrics.IsNonneg) (hrow : 0 < perRow)
    (hfits : ∀ entity ∈ entities,
      30 + entity.attributes.length * metrics.rowHeight ≤ 200 + metrics.verticalSpacing) :
    IsGrid metrics perRow entities (gridFrom metrics perRow 0 entities) where
  placed := by
    intro entity hentity
    obtain ⟨index, hindex⟩ := List.getElem?_of_mem hentity
    have hbox : (gridFrom metrics perRow 0 entities).boxAt? entities index = _ :=
      boxAt?_gridFrom hnames hindex
    rw [Placement.boxAt?, hindex] at hbox
    exact ⟨_, hbox, rfl, rfl, margin_le_gridBox hsizes hrow index entity⟩
  disjoint := by
    intro i j a b hlt ha hb
    obtain ⟨first, hfirst, rfl⟩ := exists_entity_of_boxAt? hnames ha
    obtain ⟨second, -, rfl⟩ := exists_entity_of_boxAt? hnames hb
    exact disjoint_gridBox hsizes hrow hlt (hfits first hfirst) second
  sameRow := by
    intro i j a b hlt ha hb hsame
    obtain ⟨first, -, rfl⟩ := exists_entity_of_boxAt? hnames ha
    obtain ⟨second, -, rfl⟩ := exists_entity_of_boxAt? hnames hb
    refine ⟨?_, gridBox_x_of_same_row hsizes hlt hsame first second⟩
    rw [gridBox_y, gridBox_y, hsame]
  sameColumn := by
    intro i j a b _ ha hb hsame
    obtain ⟨first, -, rfl⟩ := exists_entity_of_boxAt? hnames ha
    obtain ⟨second, -, rfl⟩ := exists_entity_of_boxAt? hnames hb
    rw [gridBox_x, gridBox_x, column_eq hrow, column_eq hrow, hsame]

/-! ## Boxes of whole numbers -/

/-- The box with an index, computed in whole numbers. -/
def wholeBox (metrics : Metrics ℕ) (perRow index : ℕ) (entity : Entity) : Box ℕ where
  x := index % perRow * (metrics.entityWidth + metrics.horizontalSpacing) + 40
  y := index / perRow * (200 + metrics.verticalSpacing) + 40
  width := metrics.entityWidth
  height := 30 + entity.attributes.length * metrics.rowHeight

/-- The boxes of entities, computed in whole numbers. -/
def wholeGrid (metrics : Metrics ℕ) (perRow : ℕ) (entities : List Entity) : Placement ℕ :=
  entities.zipIdx.map fun (entity, index) => (entity.name, wholeBox metrics perRow index entity)

/-- A natural number as a measure. -/
def ofNatural (n : ℕ) : Measure :=
  .whole n

/-- Measures that are whole numbers are computed exactly. -/
theorem gridBox_ofNatural
    (metrics : Metrics ℕ) {perRow : ℕ} (hrow : 0 < perRow) (index : ℕ) (entity : Entity) :
    gridBox (metrics.map ofNatural).computed (.ok (ofNatural perRow)) index entity =
      ((wholeBox metrics perRow index entity).map ofNatural).map .ok := by
  have hdivide : ∀ wholes doubles, Measure.divide wholes doubles (.whole index) (ofNatural perRow) =
      .ok (.whole (wholes index perRow)) := by
    intro wholes doubles
    rw [Measure.divide, if_neg (by simpa [ofNatural, Measure.isZero] using hrow.ne')]
    rfl
  have hcolumn : gridColumn (.ok (ofNatural perRow) : Computed) index =
      .ok (.whole (index % perRow : ℕ)) := by
    refine (hdivide Int.fmod _).trans ?_
    rw [Int.fmod_eq_emod_of_nonneg _ perRow.cast_nonneg, Int.natCast_emod]
  have hlevel : gridRow (.ok (ofNatural perRow) : Computed) index =
      .ok (.whole (index / perRow : ℕ)) := by
    refine (hdivide Int.fdiv _).trans ?_
    rw [Int.fdiv_eq_ediv_of_nonneg _ perRow.cast_nonneg, Int.natCast_ediv]
  have hsum : ∀ count pitch gap : ℕ,
      (.ok (.whole count) * (.ok (.whole pitch) + .ok (.whole gap)) + Scalar.ofNat 40 : Computed) =
        .ok (ofNatural (count * (pitch + gap) + 40)) := by
    intro count pitch gap
    rw [ofNatural]
    push_cast
    rfl
  have hheight : entityHeight (metrics.map ofNatural).computed entity =
      .ok (ofNatural (30 + entity.attributes.length * metrics.rowHeight)) := by
    rw [ofNatural]
    push_cast
    rfl
  simp only [gridBox, hcolumn, hlevel, hheight]
  exact congrArg₂ (fun x y => Box.mk x y _ _) (hsum _ _ _) (hsum _ 200 _)

/-- So are rationals. -/
theorem gridBox_cast
    (metrics : Metrics ℕ) (perRow index : ℕ) (entity : Entity) :
    gridBox (metrics.map ((↑) : ℕ → ℚ)) perRow index entity =
      (wholeBox metrics perRow index entity).map (↑) := by
  have hlevel : ⌊(index : ℚ) / perRow⌋ = (index / perRow : ℕ) :=
    Rat.floor_natCast_div_natCast index perRow
  have hcolumn : (index : ℚ) - perRow * (index / perRow : ℕ) = (index % perRow : ℕ) := by
    rw [sub_eq_iff_eq_add]
    exact_mod_cast (Nat.mod_add_div index perRow).symm
  have hbox : gridBox (metrics.map ((↑) : ℕ → ℚ)) perRow index entity =
      { x := (index - perRow * ⌊(index : ℚ) / perRow⌋) *
          (metrics.entityWidth + metrics.horizontalSpacing) + 40
        y := ⌊(index : ℚ) / perRow⌋ * (200 + metrics.verticalSpacing) + 40
        width := metrics.entityWidth
        height := 30 + entity.attributes.length * metrics.rowHeight } :=
    rfl
  rw [hbox, hlevel, Int.cast_natCast, hcolumn]
  simp [wholeBox, Box.map]

theorem gridFrom_ofNatural
    (metrics : Metrics ℕ) {perRow : ℕ} (hrow : 0 < perRow) (entities : List Entity) :
    gridFrom (metrics.map ofNatural).computed (.ok (ofNatural perRow)) 0 entities =
      ((wholeGrid metrics perRow entities).mapBoxes ofNatural).mapBoxes .ok := by
  rw [gridFrom_eq, wholeGrid, Placement.mapBoxes, Placement.mapBoxes, List.map_map, List.map_map]
  simp only [gridBox_ofNatural metrics hrow, Function.comp_def]

theorem gridFrom_cast
    (metrics : Metrics ℕ) (perRow : ℕ) (entities : List Entity) :
    gridFrom (metrics.map ((↑) : ℕ → ℚ)) perRow 0 entities =
      (wholeGrid metrics perRow entities).mapBoxes (↑) := by
  rw [gridFrom_eq, wholeGrid, Placement.mapBoxes, List.map_map]
  simp only [gridBox_cast, Function.comp_def]

theorem Metrics.isNonneg_cast
    (metrics : Metrics ℕ) :
    (metrics.map ((↑) : ℕ → ℚ)).IsNonneg :=
  ⟨Nat.cast_nonneg _, Nat.cast_nonneg _, Nat.cast_nonneg _, Nat.cast_nonneg _⟩

/-- Boxes in rows do not overlap if none is higher than its row: for entities with different names,
any sizes that are not negative and rows of any positive length, every entity has a box, and the boxes
keep apart by their rows and columns. With whole numbers there always is a drawing, and its boxes are
these. -/
theorem isGrid_gridPlacement
    {entities : List Entity} (hnames : (entities.map Entity.name).Nodup) :
    (∀ (metrics : Metrics ℚ) (perRow : ℚ), metrics.IsNonneg → 0 < perRow →
      (∀ entity ∈ entities,
        30 + entity.attributes.length * metrics.rowHeight ≤ 200 + metrics.verticalSpacing) →
      IsGrid metrics perRow entities (gridFrom metrics perRow 0 entities)) ∧
    ∀ (metrics : Metrics ℕ) (perRow : ℕ), 0 < perRow →
      (∀ entity ∈ entities,
        30 + entity.attributes.length * metrics.rowHeight ≤ 200 + metrics.verticalSpacing) →
      ∃ placement : Placement ℕ,
        gridPlacement (metrics.map ofNatural) (ofNatural perRow) entities =
          .ok (placement.mapBoxes ofNatural) ∧
        IsGrid (metrics.map (↑)) perRow entities (placement.mapBoxes (↑)) := by
  refine ⟨fun metrics perRow hsizes hrow hfits => isGrid_gridFrom hnames hsizes hrow hfits, ?_⟩
  intro metrics perRow hrow hfits
  refine ⟨wholeGrid metrics perRow entities, ?_, ?_⟩
  · rw [gridPlacement, gridFrom_ofNatural metrics hrow, Placement.settled_mapBoxes]
    rfl
  · rw [← gridFrom_cast]
    refine isGrid_gridFrom hnames metrics.isNonneg_cast (by exact_mod_cast hrow) ?_
    intro entity hentity
    change 30 + (entity.attributes.length : ℚ) * (metrics.rowHeight : ℚ) ≤
      200 + (metrics.verticalSpacing : ℚ)
    exact_mod_cast hfits entity hentity

/-- With attributes that are 50 high the first entity is as high as its row. -/
def highEntities : List Entity :=
  [{ name := "A", attributes := List.replicate 5 { name := "x", type := { name := "string" } } },
    { name := "B" }, { name := "C" }]

/-- The first and the third box stand in one column, without overlapping. -/
theorem isGrid_highEntities :
    (highEntities.map Entity.name).Nodup ∧
      (∃ placement : Placement ℕ,
        gridPlacement (Metrics.map ofNatural ⟨200, 50, 80, 80⟩) (ofNatural 2) highEntities =
          .ok (placement.mapBoxes ofNatural) ∧
        ∃ a c : Box ℚ, (placement.mapBoxes (↑)).boxAt? highEntities 0 = some a ∧
          (placement.mapBoxes (↑)).boxAt? highEntities 2 = some c ∧ a.height = 200 + 80 ∧
          a.x = c.x ∧ Disjoint a.interior c.interior) ∧
      IsGrid ⟨1 / 2, 100 / 3, 1 / 4, 0⟩ 2 highEntities
        (gridFrom ⟨1 / 2, 100 / 3, 1 / 4, 0⟩ 2 0 highEntities) := by
  have hnames : (highEntities.map Entity.name).Nodup := by decide
  obtain ⟨hexact, hwhole⟩ := isGrid_gridPlacement hnames
  obtain ⟨placement, hplacement, hgrid⟩ := hwhole ⟨200, 50, 80, 80⟩ 2 (by decide) (by decide)
  obtain ⟨a, ha, -, hheight, -⟩ := hgrid.placed highEntities[0] (by simp [highEntities])
  obtain ⟨c, hc, -⟩ := hgrid.placed highEntities[2] (by simp [highEntities])
  have hcolumn : Int.fract (((0 : ℕ) : ℚ) / (2 : ℕ)) = Int.fract (((2 : ℕ) : ℚ) / (2 : ℕ)) := by
    norm_num
  refine ⟨hnames, ⟨placement, hplacement, a, c, ha, hc, ?_, ?_, ?_⟩, ?_⟩
  · rw [hheight]
    norm_num [highEntities, Metrics.map]
  · exact hgrid.sameColumn (show 0 < 2 by decide) ha hc hcolumn
  · exact hgrid.disjoint (show 0 < 2 by decide) ha hc
  · refine hexact _ 2 ⟨?_, ?_, ?_, ?_⟩ (by norm_num) ?_
    all_goals norm_num [highEntities]

end EntityDiagram.Layout
