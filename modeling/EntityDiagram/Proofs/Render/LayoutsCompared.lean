import EntityDiagram.Proofs.Layout.Components
import EntityDiagram.Proofs.Render.DocumentReading

/-!
# The two layouts compared

A document in rows and one in layers have the same cells. Only the containers depend on the placement,
and of a box only the corner: both layouts give a name the common width and the height of its last
entity. Of the engine that computes the layers it is only relied on that it places every name.
-/

namespace EntityDiagram.Render.Drawio

open Declaration.Parse (map_eq_ok mapError_eq_ok)
open Layout (Centre Component DrawingEngine HasSize Placement)
open Layout.Layered (Graph)
open Model (Attribute Diagram Entity)
open Number (Binary64 Measure NumberFault)
open Text.Markup (Attributes Element readDocument)

/-! ## The layout as an option -/

theorem rowsFrom_layout
    (options : DrawioOptions) (layout : String) (parent id : Nat) (fields : List Attribute) :
    rowsFrom { options with layout } parent id fields = rowsFrom options parent id fields := by
  induction fields generalizing id with
  | nil => rfl
  | cons field rest ih =>
    rw [rowsFrom, rowsFrom, ih]
    rfl

theorem entityCellsFrom_layout
    (options : DrawioOptions) (layout : String) (placement : Placement Measure) (id : Nat)
    (entities : List Entity) :
    entityCellsFrom { options with layout } placement id entities =
      entityCellsFrom options placement id entities := by
  induction entities generalizing id with
  | nil => rfl
  | cons entity rest ih => rw [entityCellsFrom, entityCellsFrom, ih, rowsFrom_layout]

/-- Once the boxes are given, the layout makes no difference. -/
theorem renderPlaced_layout
    (options : DrawioOptions) (layout now : String) (placement : Placement Measure)
    (diagram : Diagram) :
    renderPlaced { options with layout } now placement diagram =
      renderPlaced options now placement diagram := by
  have hcells : cells { options with layout } placement diagram = cells options placement diagram := by
    rw [cells, cells, entityCellsFrom_layout]
  have htext : cellText { options with layout } = cellText options := by
    funext cell
    cases cell <;> rfl
  rw [renderPlaced, renderPlaced, hcells, htext]
  rfl

theorem isWritable_layout
    {options : DrawioOptions} {layout : String} {placement : Placement Measure} {diagram : Diagram} :
    IsWritable { options with layout } placement diagram ↔ IsWritable options placement diagram :=
  forall₂_congr fun _ _ => ⟨fun h => ⟨h.box, h.rows⟩, fun h => ⟨h.box, h.rows⟩⟩

theorem render_layout_eq_ok_iff
    {engine : DrawingEngine} {options : DrawioOptions} {layout now : String} {diagram : Diagram}
    {text : Text} :
    render engine { options with layout } now diagram = .ok text ↔
      ∃ placement, placementOf engine { options with layout } diagram = .ok placement ∧
        IsWritable options placement diagram ∧
        renderPlaced options now placement diagram = text := by
  simp only [render_eq_ok_iff, isWritable_layout, renderPlaced_layout]

/-! ## Sizes -/

/-- In both placements the entities have boxes, and of the same sizes. -/
def SameSizes (entities : List Entity) (front back : Placement Measure) : Prop :=
  ∀ entity ∈ entities, ∃ box box', front.box? entity.name = some box ∧
    back.box? entity.name = some box' ∧ box.width = box'.width ∧ box.height = box'.height

/-- The components that the engine finds for the graph of the diagram, given the sizes of the options,
hold every name of the graph. -/
def Covers (engine : DrawingEngine) (options : DrawioOptions) (diagram : Diagram) : Prop :=
  ∀ (graph : Graph Measure) (components : List (Component Measure)),
    (Graph.ofDiagram (metricsOf options).computed diagram).settled = .ok graph →
    engine (metricsOf options) graph = components.map .ok →
    ∀ name ∈ graph.names, name ∈ components.flatten.map Prod.fst

theorem exists_box?_of_covers
    {engine : DrawingEngine} {options : DrawioOptions} {diagram : Diagram}
    (hcovers : Covers engine options diagram) {layers : Placement Measure}
    (hlayers : Layout.layeredPlacement engine (metricsOf options) diagram = .ok layers)
    {entity : Entity} (hentity : entity ∈ diagram.entities) :
    ∃ box, layers.box? entity.name = some box ∧
      HasSize (metricsOf options) diagram.entities entity.name box := by
  obtain ⟨graph, components, hgraph, hfound, hnames⟩ :=
    Layout.map_fst_layeredPlacement hlayers (List.ne_nil_of_mem hentity)
  have hname : entity.name ∈ graph.names := by
    rw [Graph.names_of_settled hgraph, Graph.mem_names_ofDiagram]
    exact List.mem_map_of_mem hentity
  have hplaced := hcovers graph components hgraph hfound entity.name hname
  obtain ⟨box, hbox⟩ := Placement.exists_box? (hnames ▸ hplaced)
  exact ⟨box, hbox, Layout.hasSize_of_box?_layeredPlacement hlayers hbox⟩

theorem sameSizes_of_covers
    {engine : DrawingEngine} {options : DrawioOptions} {diagram : Diagram}
    (hcovers : Covers engine options diagram) {rows layers : Placement Measure}
    (hrows : Layout.gridPlacement (metricsOf options) options.entitiesPerRow diagram.entities =
      .ok rows)
    (hlayers : Layout.layeredPlacement engine (metricsOf options) diagram = .ok layers) :
    SameSizes diagram.entities rows layers := by
  intro entity hentity
  -- Both layouts take the height of the last entity with the name, whichever entity is looked at.
  obtain ⟨box, hbox, hsize⟩ :=
    Layout.exists_box?_gridPlacement hrows (List.mem_map_of_mem hentity)
  obtain ⟨box', hbox', hsize'⟩ := exists_box?_of_covers hcovers hlayers hentity
  exact ⟨box, box', hbox, hbox', hsize.width.trans hsize'.width.symm,
    Except.ok.inj (hsize.height.trans hsize'.height.symm)⟩

/-! ## Cells -/

/-- Two elements that are the same, or containers that differ at most in the corner of their boxes. -/
inductive SameButCorner : Element → Element → Prop
  | same (element : Element) : SameButCorner element element
  | corner {attributes : Attributes} {x y x' y' width height : Text}
      (hvertex : attributes.lookup ("vertex" : Text) = some ("1" : Text))
      (hparent : attributes.lookup ("parent" : Text) = some ("1" : Text)) :
    SameButCorner
      (.node "mxCell" attributes [.node "mxGeometry"
        [("x", x), ("y", y), ("width", width), ("height", height), ("as", "geometry")] []])
      (.node "mxCell" attributes [.node "mxGeometry"
        [("x", x'), ("y", y'), ("width", width), ("height", height), ("as", "geometry")] []])

section

variable {options : DrawioOptions} {front back : Placement Measure}

theorem sameButCorner_self
    (elements : List Element) :
    List.Forall₂ SameButCorner elements elements :=
  List.forall₂_same.mpr fun element _ => .same element

theorem sameButCorner_entityCellsFrom
    {entities : List Entity} (hsizes : SameSizes entities front back) (id : Nat) :
    List.Forall₂ SameButCorner ((entityCellsFrom options front id entities).map (cellElement options))
      ((entityCellsFrom options back id entities).map (cellElement options)) := by
  induction entities generalizing id with
  | nil => exact .nil
  | cons entity rest ih =>
    obtain ⟨⟨box, box', hbox, hbox', hwidth, hheight⟩, hrest⟩ := List.forall_mem_cons.mp hsizes
    simp only [entityCellsFrom, boxOf, hbox, hbox', Option.getD_some, List.map_append, List.map_cons]
    refine List.rel_append (.cons ?_ (sameButCorner_self _)) (ih hrest _)
    rw [cellElement, cellElement, hwidth, hheight]
    exact .corner rfl rfl

/-- Only the containers depend on the placement. -/
theorem sameButCorner_cells
    {diagram : Diagram} (hsizes : SameSizes diagram.entities front back) :
    List.Forall₂ SameButCorner ((cells options front diagram).map (cellElement options))
      ((cells options back diagram).map (cellElement options)) := by
  rw [cells, cells, List.map_append, List.map_append]
  exact List.rel_append (sameButCorner_entityCellsFrom hsizes _) (sameButCorner_self _)

end

/-! ## Documents -/

theorem fault?_layout
    {options : DrawioOptions} (hvalid : (Options.drawio options).fault? = none) {layout : String}
    (hlayout : layout ∈ layouts) :
    (Options.drawio { options with layout }).fault? = none := by
  have hrow : options.entitiesPerRow.less (.whole 1) = false := by
    rw [Bool.eq_false_iff]
    intro hless
    simp [Options.fault?, hless] at hvalid
  simp [Options.fault?, hrow, hlayout]

/-- Whatever engine computes the layers, if it places every name: for options that are accepted there is
a document in rows or in layers if and only if the boxes can be placed there and their numbers can be
written. In both placements every entity has a box, of the same size, and what is written for them is
read back as the same elements in the same order, which differ in corners of containers at most. -/
theorem sameButCorner_render
    {engine : DrawingEngine} {options : DrawioOptions} {diagram : Diagram}
    (hcovers : Covers engine options diagram) (hvalid : (Options.drawio options).fault? = none)
    {modified : Text} (hmodified : options.modified = some modified) (hnonempty : modified ≠ "") :
    let inRows : DrawioOptions := { options with layout := "grid" }
    let inLayers : DrawioOptions := { options with layout := "layered" }
    ((Options.drawio inRows).fault? = none ∧ (Options.drawio inLayers).fault? = none) ∧
      (∀ now text, render engine inRows now diagram = .ok text ↔
        ∃ rows, placementOf engine inRows diagram = .ok rows ∧
          IsWritable options rows diagram ∧ renderPlaced options now rows diagram = text) ∧
      (∀ now text, render engine inLayers now diagram = .ok text ↔
        ∃ layers, placementOf engine inLayers diagram = .ok layers ∧
          IsWritable options layers diagram ∧ renderPlaced options now layers diagram = text) ∧
      ∀ rows layers, placementOf engine inRows diagram = .ok rows →
        placementOf engine inLayers diagram = .ok layers →
          SameSizes diagram.entities rows layers ∧
            ∀ now now', ∃ drawn drawn',
              readDocument (renderPlaced options now rows diagram).toList =
                some (documentAround modified (rootElements ++ drawn)) ∧
              readDocument (renderPlaced options now' layers diagram).toList =
                some (documentAround modified (rootElements ++ drawn')) ∧
              List.Forall₂ SameButCorner drawn drawn' := by
  intro inRows inLayers
  refine ⟨⟨fault?_layout hvalid (by decide), fault?_layout hvalid (by decide)⟩,
    fun now text => render_layout_eq_ok_iff, fun now text => render_layout_eq_ok_iff, ?_⟩
  intro rows layers hrows hlayers
  have hsizes : SameSizes diagram.entities rows layers := sameSizes_of_covers hcovers hrows hlayers
  have hread : ∀ now placement, readDocument (renderPlaced options now placement diagram).toList =
      some (documentAround modified
        (rootElements ++ (cells options placement diagram).map (cellElement options))) := by
    intro now placement
    have hgiven : modifiedText options now = modified := modifiedText_eq hmodified hnonempty now
    rw [← hgiven]
    exact readDocument_renderPlaced (by simp [hmodified, Text.nonempty?, hnonempty]) _ _
  exact ⟨hsizes, fun now now' => ⟨_, _, hread now rows, hread now' layers,
    sameButCorner_cells hsizes⟩⟩

/-- The component of a name that is not connected to others, at the upper edge. -/
def aloneComponent : Text × Measure → Except String (Component Measure)
  | (name, height) =>
    (height.half.map fun y => [(name, ⟨.binary ⟨0⟩, y⟩)]).mapError NumberFault.message

/-- An engine for diagrams whose entities are not connected: every name is a component. -/
def aloneEngine : DrawingEngine := fun _ graph =>
  graph.vertices.map aloneComponent

/-- It places every name. -/
theorem covers_aloneEngine
    (options : DrawioOptions) (diagram : Diagram) :
    Covers aloneEngine options diagram := by
  intro graph components _ hfound name hname
  obtain ⟨⟨name, height⟩, hvertex, rfl⟩ := List.mem_map.mp hname
  have hplaced := List.mem_map_of_mem (f := aloneComponent) hvertex
  rw [← aloneEngine, hfound] at hplaced
  obtain ⟨component, hmem, hcomponent⟩ := List.mem_map.mp hplaced
  obtain ⟨y, -, rfl⟩ := map_eq_ok (mapError_eq_ok.mp hcomponent.symm)
  have hentry : (name, ⟨.binary ⟨0⟩, y⟩) ∈ [(name, (⟨.binary ⟨0⟩, y⟩ : Centre Measure))] :=
    List.mem_singleton_self _
  exact List.mem_map_of_mem (List.mem_flatten.mpr ⟨_, hmem, hentry⟩)

/-- A name that is declared twice and refers to itself, and one that refers to an unknown name. -/
def repeatedDiagram : Diagram where
  entities := [
    { name := "A", attributes := [{ name := "a", type := { name := "A" } }] },
    { name := "B", attributes := [{ name := "x", type := { name := "X" } }] },
    { name := "A" }]
  relationships := [⟨"A", "A", .oneToOne, "a", true⟩, ⟨"B", "X", .oneToOne, "x", true⟩]

/-- One entity in each row, and a time of modification. -/
def columnOptions : DrawioOptions where
  entitiesPerRow := .whole 1
  modified := some "now"

/-- There are both documents, with the boxes below each other and side by side. -/
theorem sameButCorner_repeatedDiagram :
    ∃ text text',
      render aloneEngine { columnOptions with layout := "grid" } "" repeatedDiagram = .ok text ∧
      render aloneEngine { columnOptions with layout := "layered" } "" repeatedDiagram = .ok text' ∧
      ∃ drawn drawn',
        readDocument text.toList = some (documentAround "now" (rootElements ++ drawn)) ∧
        readDocument text'.toList = some (documentAround "now" (rootElements ++ drawn')) ∧
        List.Forall₂ SameButCorner drawn drawn' := by
  obtain ⟨text, htext⟩ : ∃ text,
      render aloneEngine { columnOptions with layout := "grid" } "" repeatedDiagram = .ok text :=
    exists_of_isOk (by decide +kernel)
  obtain ⟨text', htext'⟩ : ∃ text,
      render aloneEngine { columnOptions with layout := "layered" } "" repeatedDiagram = .ok text :=
    exists_of_isOk (by decide +kernel)
  obtain ⟨-, hrows, hlayers, hsame⟩ :=
    sameButCorner_render (covers_aloneEngine columnOptions repeatedDiagram) (by decide +kernel) rfl
      (show ("now" : Text) ≠ "" by decide)
  obtain ⟨rows, hinRows, -, hplaced⟩ := (hrows "" text).mp htext
  obtain ⟨layers, hinLayers, -, hplaced'⟩ := (hlayers "" text').mp htext'
  obtain ⟨-, hread⟩ := hsame rows layers hinRows hinLayers
  obtain ⟨drawn, drawn', hdrawn, hdrawn', hcorner⟩ := hread "" ""
  exact ⟨text, text', htext, htext', drawn, drawn', hplaced ▸ hdrawn, hplaced' ▸ hdrawn', hcorner⟩

/-- Rows that are so far apart that the third one starts beyond the range of doubles. -/
def distantOptions : DrawioOptions where
  verticalSpacing := .whole (Int.ofNat (Nat.pow 2 1023))
  entitiesPerRow := .whole 1
  modified := some "now"

/-- The options are accepted for both layouts, and for three entities without attributes there is no
document in rows, but there is one in layers. -/
theorem render_distantOptions :
    let diagram : Diagram := { entities := [{ name := "A" }, { name := "B" }, { name := "C" }] }
    (Options.drawio distantOptions).fault? = none ∧
      (Options.drawio { distantOptions with layout := "layered" }).fault? = none ∧
      distantOptions.layout = "grid" ∧ distantOptions.modified = some ("now" : Text) ∧
      Covers aloneEngine distantOptions diagram ∧
      render aloneEngine distantOptions "" diagram = .error (.number .tooLarge) ∧
      ∃ text, render aloneEngine { distantOptions with layout := "layered" } "" diagram = .ok text := by
  intro diagram
  exact ⟨by decide +kernel, by decide +kernel, rfl, rfl, covers_aloneEngine _ _, by decide +kernel,
    exists_of_isOk (by decide +kernel)⟩

end EntityDiagram.Render.Drawio
