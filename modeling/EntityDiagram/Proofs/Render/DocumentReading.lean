import EntityDiagram.Proofs.Render.CellNumbers

/-!
# Documents read back

A reader of a drawing in rows finds the cells of the diagram and no others: a vertex with its name for
every entity, a vertex for each attribute, and an edge with its label for every relationship between
entities.
-/

namespace EntityDiagram.Render.Drawio

open Layout (DrawingEngine Placement)
open Model (Attribute Diagram Entity Relationship)
open Number (Measure)
open Text.Markup (Element readDocument)

/-! ## What a document shows -/

/-- A cell with a text, as a reader of the elements finds it. -/
inductive CellView where
  | vertex (value : Text)
  | edge (value : Text)
  deriving DecidableEq, Repr

/-- The view of an element, if it is a cell with a text. -/
def view? : Element → Option CellView
  | .node name attributes _ =>
    if name = "mxCell" then do
      let value ← attributes.lookup ("value" : Text)
      match attributes.lookup ("vertex" : Text), attributes.lookup ("edge" : Text) with
      | some flag, none => if flag = "1" then some (.vertex value) else none
      | none, some flag => if flag = "1" then some (.edge value) else none
      | _, _ => none
    else none

/-- The mark of an attribute's key between brackets, where keys are shown and the attribute has one. -/
def keyText (options : DrawioOptions) (field : Attribute) : Text :=
  match field.key with
  | some role =>
    if options.showKeyTypes = true ∧ role.mark ≠ "" then "[" ++ role.mark ++ "] " else ""
  | none => ""

/-- An entity shows its name, and a text for each of its attributes. -/
def entityViews (options : DrawioOptions) (entity : Entity) : List CellView :=
  .vertex entity.name ::
    entity.attributes.map fun field =>
      .vertex (keyText options field ++ field.name ++ ": " ++ typeText field.type)

/-- Both ends of a relationship are entities of the diagram. -/
def IsConnected (diagram : Diagram) (link : Relationship) : Prop :=
  link.source ∈ diagram.entities.map Entity.name ∧ link.target ∈ diagram.entities.map Entity.name

instance (diagram : Diagram) (link : Relationship) : Decidable (IsConnected diagram link) :=
  inferInstanceAs (Decidable (_ ∧ _))

/-- What a diagram shows: its entities in order, and a label for each connected relationship. -/
def diagramViews (options : DrawioOptions) (diagram : Diagram) : List CellView :=
  diagram.entities.flatMap (entityViews options) ++
    (diagram.relationships.filter (IsConnected diagram)).map fun link => .edge link.label

theorem rowText_eq
    (options : DrawioOptions) (field : Attribute) :
    rowText options field =
      keyText options field ++ field.name ++ ": " ++ typeText field.type := by
  unfold rowText keyText
  cases field.key with
  | none => simp [Text.append_assoc]
  | some role =>
    by_cases hshown : options.showKeyTypes = true
    · by_cases hmark : role.mark = ""
      · simp [hshown, hmark, Text.nonempty?, Text.append_assoc]
      · simp [hshown, hmark, Text.nonempty?, Text.append_assoc]
    · simp [hshown, Text.append_assoc]

theorem views_rowsFrom
    (options : DrawioOptions) (parent id : Nat) (fields : List Attribute) :
    ((rowsFrom options parent id fields).map (cellElement options)).map view? =
      fields.map fun field =>
        some (.vertex (keyText options field ++ field.name ++ ": " ++ typeText field.type)) := by
  induction fields generalizing id with
  | nil => rfl
  | cons field rest ih =>
    rw [rowsFrom, List.map_cons, List.map_cons, List.map_cons, ih, ← rowText_eq]
    rfl

theorem views_entityCellsFrom
    (options : DrawioOptions) (placement : Placement Measure) (id : Nat) (entities : List Entity) :
    ((entityCellsFrom options placement id entities).map (cellElement options)).map view? =
      (entities.flatMap (entityViews options)).map some := by
  induction entities generalizing id with
  | nil => rfl
  | cons entity rest ih =>
    rw [entityCellsFrom, List.map_append, List.map_append, ih, List.flatMap_cons, List.map_append,
      List.map_cons, List.map_cons, views_rowsFrom, entityViews, List.map_cons, List.map_map]
    rfl

/-- There is an edge for a relationship if and only if it is connected. -/
theorem views_edge?
    (options : DrawioOptions) (diagram : Diagram) (id : Nat) (link : Relationship) :
    ((edge? (containersFrom firstId diagram.entities) id link).toList.map
        (cellElement options)).map view? =
      if IsConnected diagram link then [some (.edge link.label)] else [] := by
  have hconnected : IsConnected diagram link ↔
      (∃ index, IsLastNamed diagram.entities link.source index) ∧
        ∃ index, IsLastNamed diagram.entities link.target index :=
    and_congr exists_isLastNamed_iff.symm exists_isLastNamed_iff.symm
  split
  · rename_i hlink
    obtain ⟨⟨source, hsource⟩, ⟨target, htarget⟩⟩ := hconnected.mp hlink
    rw [edge?_eq_some_iff.mpr ⟨source, target, hsource, htarget, rfl⟩]
    rfl
  · rename_i hlink
    have hnone : edge? (containersFrom firstId diagram.entities) id link = none := by
      rw [Option.eq_none_iff_forall_ne_some]
      intro cell hcell
      obtain ⟨source, target, hsource, htarget, -⟩ := edge?_eq_some_iff.mp hcell
      exact hlink (hconnected.mpr ⟨⟨source, hsource⟩, ⟨target, htarget⟩⟩)
    rw [hnone]
    rfl

theorem views_edgeCellsFrom
    (options : DrawioOptions) (diagram : Diagram) (id : Nat) (links : List Relationship) :
    ((edgeCellsFrom (containersFrom firstId diagram.entities) id links).map
        (cellElement options)).map view? =
      ((links.filter (IsConnected diagram)).map fun link => CellView.edge link.label).map some := by
  induction links generalizing id with
  | nil => rfl
  | cons link rest ih =>
    rw [edgeCellsFrom, List.map_append, List.map_append, ih, views_edge?, List.filter_cons]
    by_cases hlink : IsConnected diagram link
    · rw [if_pos hlink, if_pos (decide_eq_true hlink)]
      rfl
    · rw [if_neg hlink, if_neg (by simpa using hlink)]
      rfl

/-- The cells show the diagram, and nothing else. -/
theorem views_cells
    (options : DrawioOptions) (placement : Placement Measure) (diagram : Diagram) :
    ((cells options placement diagram).map (cellElement options)).map view? =
      (diagramViews options diagram).map some := by
  rw [cells, List.map_append, List.map_append, views_entityCellsFrom, views_edgeCellsFrom,
    diagramViews, List.map_append]

/-- A drawing in rows is read back. There is a placement where all sizes are whole, and a document if
and only if the numbers of the placed diagram can be written. Its reader finds the two root cells, a
vertex with its name for every entity followed by a vertex for each of its attributes, an edge with its
label for every relationship between entities, and no other cell; the time of modification stands where
it was given. -/
theorem readDocument_render
    {options : DrawioOptions} (hlayout : options.layout = "grid")
    (hvalid : (Options.drawio options).fault? = none) {modified : Text}
    (hmodified : options.modified = some modified) (hnonempty : modified ≠ "")
    (engine : DrawingEngine) (now : String) (diagram : Diagram) :
    (HasWholeSizes options → ∃ placement, placementOf engine options diagram = .ok placement) ∧
      ((∃ text, render engine options now diagram = .ok text) ↔
        ∃ placement, placementOf engine options diagram = .ok placement ∧
          IsWritable options placement diagram) ∧
      (∀ fault, render engine options now diagram = .error fault →
        IsRowsFault options diagram fault) ∧
      ∀ text, render engine options now diagram = .ok text →
        ∃ drawn,
          readDocument text.toList = some (documentAround modified (rootElements ++ drawn)) ∧
          drawn.map view? = (diagramViews options diagram).map some := by
  refine ⟨fun hwhole => ?_, exists_render_iff_placed, fun fault hfault => ?_, fun text htext => ?_⟩
  · exact exists_placementOf_of_hasWholeSizes hlayout hvalid hwhole engine diagram
  · exact isRowsFault_of_render hlayout hvalid hfault
  · obtain ⟨placement, hplacement, -⟩ := render_eq_ok_iff.mp htext
    have hgiven : modifiedText options now = modified := modifiedText_eq hmodified hnonempty now
    have hread := readDocument_of_render (by simp [hmodified, Text.nonempty?, hnonempty])
      hplacement htext
    rw [hgiven] at hread
    exact ⟨_, hread, views_cells options placement diagram⟩

/-- A diagram whose texts look like markup. -/
def markupDiagram : Diagram where
  entities := [
    { name := "A\"/>",
      attributes := [{ name := "<b>", type := { name := "&lt;" }, key := some .unique }] }]
  relationships := [⟨"A\"/>", "A\"/>", .oneToOne, "'c'", true⟩, ⟨"A\"/>", "B", .oneToOne, "d", true⟩]

/-- Its texts come back as they were. -/
theorem readDocument_markupDiagram :
    ∃ text, render idleEngine { modified := some "\">" } "" markupDiagram = .ok text ∧
      ∃ drawn,
        readDocument text.toList = some (documentAround "\">" (rootElements ++ drawn)) ∧
        drawn.map view? =
          [some (.vertex "A\"/>"), some (.vertex "[UK] <b>: &lt;"), some (.edge "'c'")] := by
  obtain ⟨text, htext⟩ : ∃ text,
      render idleEngine { modified := some "\">" } "" markupDiagram = .ok text :=
    exists_of_isOk (by decide +kernel)
  obtain ⟨-, -, -, hread⟩ :=
    @readDocument_render { modified := some "\">" } rfl (by decide) "\">" rfl (by decide)
      idleEngine "" markupDiagram
  obtain ⟨drawn, hdocument, hviews⟩ := hread text htext
  refine ⟨text, htext, drawn, hdocument, ?_⟩
  rw [hviews]
  decide +kernel

/-- Rows that are higher than numbers with 4300 digits. -/
def highOptions : DrawioOptions where
  rowHeight := .whole (Int.ofNat (Nat.pow 10 4300))
  modified := some "now"

/-- Options with whole sizes are accepted, and there is no document: for one entity without attributes
because its box is too wide, and for two entities with a name, of which only the last one counts for the
box, because the first one has a row that is too high. -/
theorem unwritten_documents :
    (wideOptions.layout = "grid" ∧ (Options.drawio wideOptions).fault? = none ∧
      wideOptions.modified = some ("now" : Text) ∧ HasWholeSizes wideOptions ∧
      render idleEngine wideOptions "" { entities := [{ name := "A" }] } =
        .error (.number .tooLarge)) ∧
      highOptions.layout = "grid" ∧ (Options.drawio highOptions).fault? = none ∧
      highOptions.modified = some ("now" : Text) ∧ HasWholeSizes highOptions ∧
      render idleEngine highOptions "" { entities := [
          { name := "A", attributes := [{ name := "p", type := { name := "string" } }] },
          { name := "A" }] } =
        .error (.number .tooLong) := by
  refine ⟨⟨rfl, by decide +kernel, rfl, hasWholeSizes_wideOptions, by decide +kernel⟩, rfl,
    by decide +kernel, rfl, ⟨⟨⟨200, _, 80, 80⟩, rfl⟩, 3, rfl⟩, by decide +kernel⟩

end EntityDiagram.Render.Drawio
