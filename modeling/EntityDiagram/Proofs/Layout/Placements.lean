import EntityDiagram.Layout.Grid
import EntityDiagram.Layout.Layered
import EntityDiagram.Proofs.Declaration.Reading

/-!
# Boxes of names

Whatever the layout, all boxes have the same width, and a name has the box of the last entity that
bears it: in rows, because a later box of a name counts instead of an earlier one, and in layers,
because the graph of a diagram has the height of the last entity for a name.
-/

namespace EntityDiagram.Layout

open Declaration.Parse (bind_eq_ok mapError_eq_ok)
open Layered (Graph lastHeight)
open Model (Diagram Entity)
open Number (Computed Measure NumberFault Scalar)

variable {α β : Type}

/-! ## Changing the numbers of a drawing -/

/-- Sizes in other numbers. -/
def Metrics.map (f : α → β) (metrics : Metrics α) : Metrics β where
  entityWidth := f metrics.entityWidth
  rowHeight := f metrics.rowHeight
  horizontalSpacing := f metrics.horizontalSpacing
  verticalSpacing := f metrics.verticalSpacing

/-- A box in other numbers. -/
def Box.map (f : α → β) (box : Box α) : Box β where
  x := f box.x
  y := f box.y
  width := f box.width
  height := f box.height

/-- A placement in other numbers. -/
def Placement.mapBoxes (f : α → β) (placement : Placement α) : Placement β :=
  placement.map fun (name, box) => (name, box.map f)

/-- The numbers of a box are settled where all of them could be computed. -/
theorem Box.settled_eq_ok_iff
    {box : Box Computed} {found : Box Measure} :
    box.settled = .ok found ↔ box = found.map .ok := by
  obtain ⟨x, y, width, height⟩ := box
  constructor
  · intro h
    cases x with
    | error fault => cases h
    | ok x =>
      cases y with
      | error fault => cases h
      | ok y =>
        cases width with
        | error fault => cases h
        | ok width =>
          cases height with
          | error fault => cases h
          | ok height =>
            obtain rfl := Except.ok.inj h
            rfl
  · rintro h
    cases h
    rfl

theorem Placement.settled_cons
    (name : Text) (box : Box Computed) (rest : Placement Computed) :
    Placement.settled ((name, box) :: rest) = (do
      let box ← box.settled
      let rest ← Placement.settled rest
      return (name, box) :: rest) := by
  simp only [Placement.settled, List.mapM_cons]
  cases box.settled <;> rfl

theorem Placement.settled_eq_ok_iff
    {placement : Placement Computed} {found : Placement Measure} :
    placement.settled = .ok found ↔ placement = found.mapBoxes .ok := by
  induction placement generalizing found with
  | nil => cases found <;> simp [Placement.settled, Placement.mapBoxes, pure, Except.pure]
  | cons entry rest ih =>
    obtain ⟨name, box⟩ := entry
    rw [Placement.settled_cons]
    constructor
    · intro h
      cases hbox : box.settled with
      | error fault => simp [hbox, bind, Except.bind] at h
      | ok first =>
        cases hrest : Placement.settled rest with
        | error fault => simp [hbox, hrest, bind, Except.bind] at h
        | ok others =>
          simp only [hbox, hrest, bind, Except.bind, pure, Except.pure, Except.ok.injEq] at h
          subst h
          rw [Box.settled_eq_ok_iff.mp hbox, ih.mp hrest]
          rfl
    · intro h
      cases found with
      | nil => cases h
      | cons first others =>
        obtain ⟨hfirst, hothers⟩ := List.cons.inj h
        obtain ⟨rfl, rfl⟩ := Prod.mk.inj hfirst
        rw [Box.settled_eq_ok_iff.mpr rfl, ih.mpr hothers]
        rfl

theorem Placement.settled_mapBoxes
    (placement : Placement Measure) :
    Placement.settled (placement.mapBoxes .ok) = .ok placement :=
  Placement.settled_eq_ok_iff.mpr rfl

/-- Where a box is not settled, one of its numbers could not be computed. -/
theorem Box.eq_error_of_settled
    {box : Box Computed} {fault : NumberFault} (h : box.settled = .error fault) :
    .error fault ∈ [box.x, box.y, box.width, box.height] := by
  obtain ⟨x, y, width, height⟩ := box
  cases x with
  | error other => simp_all [Box.settled, bind, Except.bind]
  | ok x =>
    cases y with
    | error other => simp_all [Box.settled, bind, Except.bind]
    | ok y =>
      cases width with
      | error other => simp_all [Box.settled, bind, Except.bind]
      | ok width => cases height <;> simp_all [Box.settled, bind, Except.bind, pure, Except.pure]

theorem Placement.exists_of_settled_eq_error
    {placement : Placement Computed} {fault : NumberFault} (h : placement.settled = .error fault) :
    ∃ entry ∈ placement, entry.2.settled = .error fault := by
  induction placement with
  | nil => cases h
  | cons entry rest ih =>
    obtain ⟨name, box⟩ := entry
    rw [Placement.settled_cons] at h
    cases hbox : box.settled with
    | error other =>
      obtain rfl : other = fault := by simpa [hbox, bind, Except.bind] using h
      exact ⟨_, List.mem_cons_self, hbox⟩
    | ok first =>
      cases hrest : Placement.settled rest with
      | error other =>
        obtain rfl : other = fault := by simpa [hbox, hrest, bind, Except.bind] using h
        obtain ⟨entry, hentry, hfault⟩ := ih hrest
        exact ⟨entry, List.mem_cons_of_mem _ hentry, hfault⟩
      | ok others => simp [hbox, hrest, bind, Except.bind, pure, Except.pure] at h

/-- No size is negative. -/
structure Metrics.IsNonneg (metrics : Metrics Rat) : Prop where
  entityWidth : 0 ≤ metrics.entityWidth
  rowHeight : 0 ≤ metrics.rowHeight
  horizontalSpacing : 0 ≤ metrics.horizontalSpacing
  verticalSpacing : 0 ≤ metrics.verticalSpacing

namespace Placement

/-! ## Looking up boxes -/

theorem box?_append
    (front back : Placement α) (name : Text) :
    box? (front ++ back) name = (box? back name).or (box? front name) := by
  simp only [box?, List.reverse_append, List.find?_append, Option.map_or]

theorem box?_eq_none_iff
    {placement : Placement α} {name : Text} :
    placement.box? name = none ↔ name ∉ placement.map Prod.fst := by
  rw [box?, Option.map_eq_none_iff, List.find?_eq_none, List.mem_map]
  constructor
  · rintro hnone ⟨entry, hentry, rfl⟩
    exact hnone entry (List.mem_reverse.mpr hentry) (beq_self_eq_true entry.1)
  · intro hnone entry hentry hname
    exact hnone ⟨entry, List.mem_reverse.mp hentry, by simpa using hname⟩

/-- The last box of a name counts. -/
theorem box?_append_cons
    {back : Placement α} {name : Text} (hlast : name ∉ back.map Prod.fst)
    (front : Placement α) (box : Box α) :
    box? (front ++ (name, box) :: back) name = some box := by
  have hsplit : front ++ (name, box) :: back = front ++ [(name, box)] ++ back := by simp
  rw [hsplit, box?_append, box?_eq_none_iff.mpr hlast, Option.none_or, box?_append]
  simp [box?]

theorem mem_of_box?
    {placement : Placement α} {name : Text} {box : Box α} (h : placement.box? name = some box) :
    (name, box) ∈ placement := by
  obtain ⟨⟨found, box'⟩, hfound, rfl⟩ := Option.map_eq_some_iff.mp h
  have hname : found = name := by simpa using List.find?_some hfound
  exact hname ▸ List.mem_reverse.mp (List.mem_of_find?_eq_some hfound)

theorem exists_box?
    {placement : Placement α} {name : Text} (h : name ∈ placement.map Prod.fst) :
    ∃ box, placement.box? name = some box := by
  rw [← Option.isSome_iff_exists, Option.isSome_iff_ne_none]
  exact fun hnone => box?_eq_none_iff.mp hnone h

theorem box?_mapBoxes
    (f : α → β) (placement : Placement α) (name : Text) :
    (placement.mapBoxes f).box? name = (placement.box? name).map (Box.map f) := by
  simp only [box?, mapBoxes, ← List.map_reverse, List.find?_map, Option.map_map]
  rfl

theorem mapBoxes_append
    (f : α → β) (front back : Placement α) :
    mapBoxes f (front ++ back) = mapBoxes f front ++ mapBoxes f back :=
  List.map_append

theorem map_fst_mapBoxes
    (f : α → β) (placement : Placement α) :
    (placement.mapBoxes f).map Prod.fst = placement.map Prod.fst := by
  simp [mapBoxes, Function.comp_def]

end Placement

/-! ## The last entity with a name -/

theorem exists_last_named
    {entities : List Entity} {name : Text} (h : name ∈ entities.map Entity.name) :
    ∃ before entity after, entities = before ++ entity :: after ∧ entity.name = name ∧
      name ∉ after.map Entity.name := by
  induction entities with
  | nil => cases h
  | cons first rest ih =>
    by_cases hrest : name ∈ rest.map Entity.name
    · obtain ⟨before, entity, after, rfl, hname, hafter⟩ := ih hrest
      exact ⟨first :: before, entity, after, rfl, hname, hafter⟩
    · rw [List.map_cons, List.mem_cons, or_iff_left hrest] at h
      exact ⟨[], first, rest, rfl, h.symm, hrest⟩

section

variable [Scalar α]

theorem lastHeight_append_cons
    {after : List Entity} {entity : Entity} (hlast : entity.name ∉ after.map Entity.name)
    (metrics : Metrics α) (before : List Entity) :
    lastHeight metrics (before ++ entity :: after) entity.name = entityHeight metrics entity := by
  have hnone : after.reverse.find? (fun other => other.name == entity.name) = none := by
    rw [List.find?_eq_none]
    intro other hother
    have hne : other.name ≠ entity.name := fun heq =>
      hlast (heq ▸ List.mem_map_of_mem (List.mem_reverse.mp hother))
    simpa using hne
  rw [lastHeight, List.reverse_append, List.reverse_cons, List.append_assoc, List.find?_append,
    hnone]
  simp

/-! ## Boxes in rows -/

theorem gridFrom_eq
    (metrics : Metrics α) (perRow : α) (start : Nat) (entities : List Entity) :
    gridFrom metrics perRow start entities =
      (entities.zipIdx start).map fun (entity, index) =>
        (entity.name, gridBox metrics perRow index entity) := by
  induction entities generalizing start with
  | nil => rfl
  | cons entity rest ih => rw [gridFrom, ih, List.zipIdx_cons, List.map_cons]

theorem map_fst_gridFrom
    (metrics : Metrics α) (perRow : α) (start : Nat) (entities : List Entity) :
    (gridFrom metrics perRow start entities).map Prod.fst = entities.map Entity.name := by
  induction entities generalizing start with
  | nil => rfl
  | cons entity rest ih => rw [gridFrom, List.map_cons, ih, List.map_cons]

/-- In rows a name has the box at the index of the last entity with the name. -/
theorem box?_gridFrom
    {after : List Entity} {entity : Entity} (hlast : entity.name ∉ after.map Entity.name)
    (metrics : Metrics α) (perRow : α) (start : Nat) (before : List Entity) :
    (gridFrom metrics perRow start (before ++ entity :: after)).box? entity.name =
      some (gridBox metrics perRow (start + before.length) entity) := by
  have hnames := map_fst_gridFrom metrics perRow (start + before.length + 1) after
  rw [gridFrom_eq, List.zipIdx_append, List.zipIdx_cons, List.map_append, List.map_cons,
    ← gridFrom_eq, ← gridFrom_eq]
  exact Placement.box?_append_cons (hnames ▸ hlast) _ _

/-! ## Boxes in layers -/

theorem map_fst_placeComponents
    (metrics : Metrics α) (heightOf : Text → α) (offset : α) (components : List (Component α)) :
    (placeComponents metrics heightOf offset components).map Prod.fst =
      components.flatten.map Prod.fst := by
  fun_induction placeComponents metrics heightOf offset components with
  | case1 => rfl
  | case2 offset rest ih => exact ih
  | case3 offset first more rest extent ih =>
    rw [List.map_append, ih, List.flatten_cons, List.map_append]
    simp [boxesWithin, Function.comp_def]

theorem size_of_mem_placeComponents
    {metrics : Metrics α} {heightOf : Text → α} {offset : α} {components : List (Component α)}
    {entry : Text × Box α} (h : entry ∈ placeComponents metrics heightOf offset components) :
    entry.2.width = metrics.entityWidth ∧ entry.2.height = heightOf entry.1 := by
  fun_induction placeComponents metrics heightOf offset components with
  | case1 => cases h
  | case2 offset rest ih => exact ih h
  | case3 offset first more rest extent ih =>
    obtain hplaced | hrest := List.mem_append.mp h
    · obtain ⟨centred, -, rfl⟩ := List.mem_map.mp hplaced
      exact ⟨rfl, rfl⟩
    · exact ih hrest

theorem map_fst_layeredPlacementBy
    (engine : Engine α) (metrics : Metrics α) (diagram : Diagram) :
    (layeredPlacementBy engine metrics diagram).map Prod.fst =
      (engine metrics (Graph.ofDiagram metrics diagram)).flatten.map Prod.fst :=
  map_fst_placeComponents _ _ _ _

/-- In layers a name that the engine places has the size of the last entity with the name. -/
theorem exists_box?_layeredPlacementBy
    {engine : Engine α} {metrics : Metrics α} {diagram : Diagram} {before after : List Entity}
    {entity : Entity} (hentities : diagram.entities = before ++ entity :: after)
    (hlast : entity.name ∉ after.map Entity.name)
    (hplaced : entity.name ∈
      (engine metrics (Graph.ofDiagram metrics diagram)).flatten.map Prod.fst) :
    ∃ box, (layeredPlacementBy engine metrics diagram).box? entity.name = some box ∧
      box.width = metrics.entityWidth ∧ box.height = entityHeight metrics entity := by
  rw [← map_fst_layeredPlacementBy] at hplaced
  obtain ⟨box, hbox⟩ := Placement.exists_box? hplaced
  obtain ⟨hwidth, hheight⟩ := size_of_mem_placeComponents (Placement.mem_of_box? hbox)
  refine ⟨box, hbox, hwidth, hheight.trans ?_⟩
  change lastHeight metrics diagram.entities entity.name = _
  rw [hentities, lastHeight_append_cons hlast]

end

/-! ## Boxes of drawings -/

/-- The boxes in rows are those whose numbers can be computed. -/
theorem gridPlacement_eq_ok_iff
    {metrics : Metrics Measure} {perRow : Measure} {entities : List Entity}
    {placement : Placement Measure} :
    gridPlacement metrics perRow entities = .ok placement ↔
      gridFrom metrics.computed (.ok perRow) 0 entities = placement.mapBoxes .ok := by
  rw [← Placement.settled_eq_ok_iff, gridPlacement]
  exact mapError_eq_ok

/-- The box has the size of the last entity with the name. -/
structure HasSize
    (metrics : Metrics Measure) (entities : List Entity) (name : Text) (box : Box Measure) :
    Prop where
  width : box.width = metrics.entityWidth
  height : .ok box.height = lastHeight metrics.computed entities name

/-- In rows every entity has a box, of the size of the last entity with its name. -/
theorem exists_box?_gridPlacement
    {metrics : Metrics Measure} {perRow : Measure} {entities : List Entity}
    {placement : Placement Measure} (h : gridPlacement metrics perRow entities = .ok placement)
    {name : Text} (hname : name ∈ entities.map Entity.name) :
    ∃ box, placement.box? name = some box ∧ HasSize metrics entities name box := by
  obtain ⟨before, entity, after, rfl, rfl, hlast⟩ := exists_last_named hname
  have hbox := box?_gridFrom hlast metrics.computed (.ok perRow) 0 before
  rw [gridPlacement_eq_ok_iff.mp h, Placement.box?_mapBoxes, Option.map_eq_some_iff] at hbox
  obtain ⟨box, hbox, hsame⟩ := hbox
  refine ⟨box, hbox, Except.ok.inj (congrArg Box.width hsame), ?_⟩
  rw [lastHeight_append_cons hlast]
  exact congrArg Box.height hsame

theorem placeComponent_eq_ok
    {metrics : Metrics Computed} {heightOf : Text → Computed} {offset : Computed}
    {first : Text × Centre Computed} {rest : Component Computed}
    {boxes : Placement Measure} {behind : Measure}
    (h : placeComponent metrics heightOf offset first rest = .ok (boxes, behind)) :
    let extent := extentOf metrics heightOf first rest
    boxesWithin metrics heightOf offset extent (first :: rest) = boxes.mapBoxes .ok ∧
      offsetBehind metrics offset extent = .ok behind := by
  intro extent
  obtain ⟨left, -, h⟩ := bind_eq_ok h
  obtain ⟨top, -, h⟩ := bind_eq_ok h
  obtain ⟨right, -, h⟩ := bind_eq_ok h
  obtain ⟨placed, hplaced, h⟩ := bind_eq_ok h
  obtain ⟨next, hnext, h⟩ := bind_eq_ok h
  obtain ⟨rfl, rfl⟩ := Prod.mk.inj (Except.ok.inj h)
  exact ⟨Placement.settled_eq_ok_iff.mp hplaced, hnext⟩

/-- The boxes of components that are placed in turn are those of the layered placement with the same
components, whose numbers can all be computed. -/
theorem placeInTurn_eq_ok
    {metrics : Metrics Computed} {heightOf : Text → Computed} {offset : Computed}
    {found : List (Except String (Component Measure))} {placement : Placement Measure}
    (h : placeInTurn metrics heightOf offset found = .ok placement) :
    ∃ components : List (Component Measure), found = components.map .ok ∧
      placeComponents metrics heightOf offset (components.map Component.computed) =
        placement.mapBoxes .ok := by
  induction found generalizing offset placement with
  | nil =>
    obtain rfl := Except.ok.inj h
    exact ⟨[], rfl, rfl⟩
  | cons outcome rest ih =>
    cases outcome with
    | error reason => cases h
    | ok component =>
      rw [placeInTurn] at h
      cases hcomponent : Component.computed component with
      | nil => simp [hcomponent] at h
      | cons first more =>
        simp only [hcomponent] at h
        obtain ⟨⟨boxes, behind⟩, hplaced, h⟩ := bind_eq_ok h
        obtain ⟨others, hrest, h⟩ := bind_eq_ok h
        obtain rfl := Except.ok.inj h
        obtain ⟨hboxes, hbehind⟩ := placeComponent_eq_ok (mapError_eq_ok.mp hplaced)
        obtain ⟨components, rfl, hothers⟩ := ih hrest
        refine ⟨component :: components, rfl, ?_⟩
        rw [List.map_cons, hcomponent, placeComponents, hboxes, hbehind, hothers,
          ← Placement.mapBoxes_append]

/-- Where layers are placed, the graph of the diagram could be computed and the engine found
components, and the boxes are those of the layered placement with these components. -/
theorem layeredPlacement_eq_ok
    {engine : DrawingEngine} {metrics : Metrics Measure} {diagram : Diagram}
    {placement : Placement Measure} (h : layeredPlacement engine metrics diagram = .ok placement)
    (hne : diagram.entities ≠ []) :
    ∃ (graph : Graph Measure) (components : List (Component Measure)),
      (Graph.ofDiagram metrics.computed diagram).settled = .ok graph ∧
      engine metrics graph = components.map .ok ∧
      placeComponents metrics.computed (lastHeight metrics.computed diagram.entities) firstOffset
        (components.map Component.computed) = placement.mapBoxes .ok := by
  rw [layeredPlacement, if_neg (by simpa using hne)] at h
  obtain ⟨graph, hgraph, h⟩ := bind_eq_ok h
  obtain ⟨components, hfound, hplaced⟩ := placeInTurn_eq_ok h
  exact ⟨graph, components, mapError_eq_ok.mp hgraph, hfound, hplaced⟩

/-- In layers a name that is placed has the size of the last entity with the name. -/
theorem hasSize_of_box?_layeredPlacement
    {engine : DrawingEngine} {metrics : Metrics Measure} {diagram : Diagram}
    {placement : Placement Measure} (h : layeredPlacement engine metrics diagram = .ok placement)
    {name : Text} {box : Box Measure} (hbox : placement.box? name = some box) :
    HasSize metrics diagram.entities name box := by
  by_cases hempty : diagram.entities = []
  · rw [layeredPlacement, if_pos (by simp [hempty])] at h
    obtain rfl := Except.ok.inj h
    cases hbox
  · obtain ⟨_, components, -, -, hplaced⟩ := layeredPlacement_eq_ok h hempty
    have hmem : ((name, box.map .ok) : Text × Box Computed) ∈ placement.mapBoxes .ok :=
      List.mem_map_of_mem (Placement.mem_of_box? hbox)
    rw [← hplaced] at hmem
    obtain ⟨hwidth, hheight⟩ := size_of_mem_placeComponents hmem
    exact ⟨Except.ok.inj hwidth, hheight⟩

/-- The names that layers are placed for are those of the components. -/
theorem map_fst_layeredPlacement
    {engine : DrawingEngine} {metrics : Metrics Measure} {diagram : Diagram}
    {placement : Placement Measure} (h : layeredPlacement engine metrics diagram = .ok placement)
    (hne : diagram.entities ≠ []) :
    ∃ (graph : Graph Measure) (components : List (Component Measure)),
      (Graph.ofDiagram metrics.computed diagram).settled = .ok graph ∧
      engine metrics graph = components.map .ok ∧
      placement.map Prod.fst = components.flatten.map Prod.fst := by
  obtain ⟨graph, components, hgraph, hfound, hplaced⟩ := layeredPlacement_eq_ok h hne
  refine ⟨graph, components, hgraph, hfound, ?_⟩
  have hnames := congrArg (List.map Prod.fst) hplaced
  rw [map_fst_placeComponents, Placement.map_fst_mapBoxes] at hnames
  rw [← hnames, List.map_flatten, List.map_flatten, List.map_map]
  simp [Component.computed, Function.comp_def]

/-- A graph whose heights could be computed has the same names. -/
theorem Layered.Graph.names_of_settled
    {graph : Graph Computed} {found : Graph Measure} (h : graph.settled = .ok found) :
    found.names = graph.names := by
  obtain ⟨vertices, hvertices, hfound⟩ := bind_eq_ok h
  obtain rfl := Except.ok.inj hfound
  rw [Graph.names, Graph.names]
  clear h hfound
  generalize graph.vertices = computed at hvertices
  induction computed generalizing vertices with
  | nil =>
    obtain rfl := Except.ok.inj hvertices
    rfl
  | cons vertex rest ih =>
    rw [List.mapM_cons] at hvertices
    obtain ⟨first, hfirst, hvertices⟩ := bind_eq_ok hvertices
    obtain ⟨others, hothers, hvertices⟩ := bind_eq_ok hvertices
    obtain rfl := Except.ok.inj hvertices
    obtain ⟨height, -, hnamed⟩ := bind_eq_ok hfirst
    obtain rfl := Except.ok.inj hnamed
    rw [List.map_cons, List.map_cons, ih others hothers]

end EntityDiagram.Layout
