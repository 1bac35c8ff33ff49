import EntityDiagram.Proofs.Model.GraphInvariant
import EntityDiagram.Proofs.Render.WrittenDocuments

/-!
# The edges of a drawing

A relationship is drawn as an edge between the containers of its ends, and is left out where one of
them is missing. In a diagram that is a graph none is missing, so its drawing has one edge for every
relationship.
-/

namespace EntityDiagram.Render

open Layout (DrawingEngine Placement)
open Model (Assembled Diagram Entity IsEdgeAmong Relationship)
open Number (Measure)
open Text.Markup (readDocument)

namespace Drawio

/-! ## Edges and their containers -/

/-- Whether a cell is an edge. -/
def Cell.isEdge : Cell → Bool
  | .edge .. => true
  | _ => false

/-- The cell is the edge of the relationship, between containers with the names of its ends. -/
inductive IsEdgeOf (cells : List Cell) : Cell → Relationship → Prop
  | edge {link : Relationship} {id source target : Nat} {box box' : Layout.Box Measure}
      (hsource : .container source link.source box ∈ cells)
      (htarget : .container target link.target box' ∈ cells) :
    IsEdgeOf cells (.edge id link.label link.cardinality source target) link

theorem IsEdgeOf.mono
    {cells cells' : List Cell} {cell : Cell} {link : Relationship} (h : IsEdgeOf cells cell link)
    (hsub : cells ⊆ cells') :
    IsEdgeOf cells' cell link := by
  cases h with
  | edge hsource htarget => exact .edge (hsub hsource) (hsub htarget)

theorem isEdge_of_mem_edgeCellsFrom
    {containers : List (Text × Nat)} {id : Nat} {links : List Relationship} {cell : Cell}
    (h : cell ∈ edgeCellsFrom containers id links) :
    cell.isEdge = true := by
  induction links generalizing id with
  | nil => cases h
  | cons link rest ih =>
    rw [edgeCellsFrom, List.mem_append, Option.mem_toList] at h
    obtain hedge | hrest := h
    · obtain ⟨source, -, htarget⟩ := Option.bind_eq_some_iff.mp hedge
      obtain ⟨target, -, hcell⟩ := Option.bind_eq_some_iff.mp htarget
      obtain rfl := Option.some.inj hcell
      rfl
    · exact ih hrest

theorem isEdge_eq_false_of_mem_rowsFrom
    {options : DrawioOptions} {parent id : Nat} {fields : List Model.Attribute} {cell : Cell}
    (h : cell ∈ rowsFrom options parent id fields) :
    cell.isEdge = false := by
  induction fields generalizing id with
  | nil => cases h
  | cons field rest ih =>
    rw [rowsFrom, List.mem_cons] at h
    obtain rfl | hrest := h
    · rfl
    · exact ih hrest

theorem isEdge_eq_false_of_mem_entityCellsFrom
    {options : DrawioOptions} {placement : Placement Measure} {id : Nat} {entities : List Entity}
    {cell : Cell} (h : cell ∈ entityCellsFrom options placement id entities) :
    cell.isEdge = false := by
  induction entities generalizing id with
  | nil => cases h
  | cons entity rest ih =>
    rw [entityCellsFrom, List.mem_append, List.mem_cons] at h
    obtain (rfl | hrow) | hrest := h
    · rfl
    · exact isEdge_eq_false_of_mem_rowsFrom hrow
    · exact ih hrest

theorem map_fst_containersFrom
    (id : Nat) (entities : List Entity) :
    (containersFrom id entities).map Prod.fst = entities.map Entity.name := by
  induction entities generalizing id with
  | nil => rfl
  | cons entity rest ih => rw [containersFrom, List.map_cons, List.map_cons, ih]

/-- The containers that edges are attached to are cells of the document. -/
theorem container_mem_entityCellsFrom
    {options : DrawioOptions} {placement : Placement Measure} {start : Nat}
    {entities : List Entity} {name : Text} {id : Nat}
    (h : (name, id) ∈ containersFrom start entities) :
    .container id name (boxOf placement name) ∈
      entityCellsFrom options placement start entities := by
  induction entities generalizing start with
  | nil => cases h
  | cons entity rest ih =>
    rw [containersFrom, List.mem_cons] at h
    rw [entityCellsFrom, List.mem_append, List.mem_cons]
    obtain heq | hrest := h
    · cases heq
      exact .inl (.inl rfl)
    · exact .inr (ih hrest)

/-- Every name of an entity has a container. -/
theorem exists_containerOf?
    (options : DrawioOptions) (placement : Placement Measure) (start : Nat)
    {entities : List Entity} {name : Text} (h : name ∈ entities.map Entity.name) :
    ∃ id box, containerOf? (containersFrom start entities) name = some id ∧
      .container id name box ∈ entityCellsFrom options placement start entities := by
  -- Of several containers with the name the last one is found; all of them are in the document.
  have hsome : ((containersFrom start entities).reverse.find? (·.1 == name)).isSome := by
    rw [← map_fst_containersFrom start] at h
    obtain ⟨entry, hentry, hname⟩ := List.mem_map.mp h
    rw [List.find?_isSome]
    exact ⟨entry, List.mem_reverse.mpr hentry, by simp [hname]⟩
  obtain ⟨⟨found, id⟩, hfound⟩ := Option.isSome_iff_exists.mp hsome
  have hname : found = name := by simpa using List.find?_some hfound
  subst hname
  have hmem : (found, id) ∈ containersFrom start entities :=
    List.mem_reverse.mp (List.mem_of_find?_eq_some hfound)
  refine ⟨id, _, ?_, container_mem_entityCellsFrom hmem⟩
  rw [containerOf?, hfound, Option.map_some]

/-- Every relationship whose ends are entities has its edge. -/
theorem edgeCellsFrom_forall₂
    {entities : List Entity} {links : List Relationship}
    (h : ∀ link ∈ links,
      link.source ∈ entities.map Entity.name ∧ link.target ∈ entities.map Entity.name)
    (options : DrawioOptions) (placement : Placement Measure) (start id : Nat) :
    List.Forall₂ (IsEdgeOf (entityCellsFrom options placement start entities))
      (edgeCellsFrom (containersFrom start entities) id links) links := by
  induction links generalizing id with
  | nil => exact .nil
  | cons link rest ih =>
    obtain ⟨hends, hrest⟩ := List.forall_mem_cons.mp h
    obtain ⟨source, box, hsource, hsourceCell⟩ :=
      exists_containerOf? options placement start hends.1
    obtain ⟨target, box', htarget, htargetCell⟩ :=
      exists_containerOf? options placement start hends.2
    have hedge : edge? (containersFrom start entities) id link =
        some (.edge id link.label link.cardinality source target) := by
      rw [edge?, hsource, htarget]
      rfl
    rw [edgeCellsFrom, hedge]
    exact .cons (.edge hsourceCell htargetCell) (ih hrest (id + 1))

/-- The edges of a document are those cells that are drawn for relationships. -/
theorem filter_isEdge_cells
    {diagram : Diagram} (h : ∀ link ∈ diagram.relationships,
      link.source ∈ diagram.entities.map Entity.name ∧
        link.target ∈ diagram.entities.map Entity.name)
    (options : DrawioOptions) (placement : Placement Measure) :
    List.Forall₂ (IsEdgeOf (cells options placement diagram))
      ((cells options placement diagram).filter Cell.isEdge) diagram.relationships := by
  have hedges := edgeCellsFrom_forall₂ h options placement firstId
    ((diagram.entities.map cellCount).foldl (· + ·) firstId)
  have hdropped : (entityCellsFrom options placement firstId diagram.entities).filter
      Cell.isEdge = [] := by
    rw [List.filter_eq_nil_iff]
    intro cell hcell
    rw [isEdge_eq_false_of_mem_entityCellsFrom hcell]
    decide
  rw [cells, List.filter_append, hdropped, List.nil_append,
    List.filter_eq_self.mpr fun _ => isEdge_of_mem_edgeCellsFrom]
  exact hedges.imp fun cell link hedge => hedge.mono (List.subset_append_left _ _)

/-! ## The document -/

/-- However a diagram was put together, it is a graph. For any engine and options for a drawing in rows
there is a placement where all sizes are whole, and of a placed diagram exactly one edge is drawn for
every relationship, between containers with the names of its ends. The placed diagram has a document
if and only if its numbers can be written, and the document is read back as these cells. -/
theorem isGraph_and_drawn
    {diagram : Diagram} (h : Assembled diagram) :
    diagram.IsGraph ∧
      ∀ (engine : DrawingEngine) (options : DrawioOptions), options.layout = "grid" →
        (Options.drawio options).fault? = none →
          (HasWholeSizes options →
            ∃ placement, placementOf engine options diagram = .ok placement) ∧
          (∀ moment : CommandLine.Moment,
            (∃ text, render engine options moment.text diagram = .ok text) ↔
              ∃ placement, placementOf engine options diagram = .ok placement ∧
                IsWritable options placement diagram) ∧
          ∀ placement, placementOf engine options diagram = .ok placement →
            List.Forall₂ (IsEdgeOf (cells options placement diagram))
              ((cells options placement diagram).filter Cell.isEdge) diagram.relationships ∧
            ∀ (moment : CommandLine.Moment) (text : Text),
              render engine options moment.text diagram = .ok text →
                readDocument text.toList =
                  some (documentAround (modifiedText options moment.text)
                    (rootElements ++ (cells options placement diagram).map (cellElement options))) := by
  have hgraph := h.isGraph
  refine ⟨hgraph, fun engine options hlayout hvalid => ⟨fun hwhole => ?_, fun moment => ?_, ?_⟩⟩
  · exact exists_placementOf_of_hasWholeSizes hlayout hvalid hwhole engine diagram
  · exact exists_render_iff_placed
  · intro placement hplacement
    refine ⟨filter_isEdge_cells ?_ options placement, fun moment text htext => ?_⟩
    · intro link hlink
      exact ⟨(hgraph.edges link hlink).source, (hgraph.edges link hlink).target⟩
    · exact readDocument_of_render (fun _ => isFixedText_moment moment) hplacement htext

/-- Two files that are read apart, and merged twice. -/
def teamDiagram : Diagram :=
  let team := Diagram.ofFiles [⟨"team.ts", [.interface {
    name := "Team"
    members := [
      .property "members" .identifier (some (.array (.reference "Team" []))) false false none] }]⟩]
  let user := Diagram.ofFiles [⟨"user.ts", [.interface { name := "User" }]⟩]
  Diagram.merge [Diagram.merge [team, user], team]

theorem assembled_teamDiagram :
    Assembled teamDiagram := by
  refine .merged (List.forall_mem_cons.mpr ⟨.merged ?_, List.forall_mem_singleton.mpr (.built _)⟩)
  exact List.forall_mem_cons.mpr ⟨.built _, List.forall_mem_singleton.mpr (.built _)⟩

theorem teamDiagram_drawn :
    teamDiagram.relationships = [⟨"Team", "Team", .oneToMany, "members", true⟩] ∧
      teamDiagram.IsGraph ∧
        ∃ placement text, placementOf idleEngine {} teamDiagram = .ok placement ∧
          List.Forall₂ (IsEdgeOf (cells {} placement teamDiagram))
            ((cells {} placement teamDiagram).filter Cell.isEdge) teamDiagram.relationships ∧
          render idleEngine {} (CommandLine.Moment.mk 0).text teamDiagram = .ok text ∧
          readDocument text.toList =
            some (documentAround (CommandLine.Moment.mk 0).text
              (rootElements ++ (cells {} placement teamDiagram).map (cellElement {}))) := by
  obtain ⟨hgraph, hdrawn⟩ := isGraph_and_drawn assembled_teamDiagram
  obtain ⟨-, hwritten, hplaced⟩ := hdrawn idleEngine {} rfl (by decide)
  obtain ⟨text, htext⟩ : ∃ text,
      render idleEngine {} (CommandLine.Moment.mk 0).text teamDiagram = .ok text :=
    exists_of_isOk (by decide +kernel)
  obtain ⟨placement, hplacement, -⟩ := (hwritten (CommandLine.Moment.mk 0)).mp ⟨text, htext⟩
  obtain ⟨hedges, hread⟩ := hplaced placement hplacement
  exact ⟨rfl, hgraph, placement, text, hplacement, hedges, htext, hread _ text htext⟩

/-- The diagram has a relationship and the options are accepted, but there is no document with an edge
for it. -/
theorem teamDiagram_undrawn :
    Assembled teamDiagram ∧ teamDiagram.relationships.length = 1 ∧ wideOptions.layout = "grid" ∧
      (Options.drawio wideOptions).fault? = none ∧ HasWholeSizes wideOptions ∧
      render idleEngine wideOptions "" teamDiagram = .error (.number .tooLarge) :=
  ⟨assembled_teamDiagram, rfl, rfl, by decide +kernel, hasWholeSizes_wideOptions, by decide +kernel⟩

end Drawio

end EntityDiagram.Render
